import LinterSuite.Proofs.Json.Strings
import LinterSuite.Proofs.Text.Digits
import LinterSuite.Proofs.Text.Separators
import Mathlib.Data.List.Forall2

/-!
# Written objects are read back

An object is written on one line, or with a line for each member. It is read as the table of its
members, provided that the text of each value is read as that value, which holds of strings,
integers that are not too long, truth values and nothing.

## Main definitions

* `Json.EndsNumber`: a text behind which a number is at its end
* `Json.Writes`: a text that is read as a value, whatever stands behind it
* `Json.Layout`: the blanks in an object

## Main results

* `Json.writes_string`, `Json.writes_integer`, `Json.writes_boolean`, `Json.writes_stringOrNull`:
  values as they are written
* `Json.read_object`: an object is read as the table of its members, however it is laid out
* `Json.read_block`, `Json.read_line`: the two ways in which objects are written
-/

namespace LinterSuite.Json

/-- A text behind which a number is at its end. -/
def EndsNumber (rest : List Char) : Prop :=
  ∀ c ∈ rest.head?, c.isDigit = false ∧ c ≠ '.' ∧ c ≠ 'e' ∧ c ≠ 'E'

/-- A text that is read as a value, whatever stands behind it. -/
structure Writes (text : String) (v : Value) : Prop where
  /-- No blanks are in front. -/
  trimmed (rest : List Char) : skipBlanks (text.toList ++ rest) = text.toList ++ rest
  read (fuel room : Nat) {rest : List Char} (h : EndsNumber rest) :
    value (fuel + 1) room (text.toList ++ rest) = .ok (v, rest)

theorem skipBlanks_cons {c : Char} (h : c ≠ ' ' ∧ c ≠ '\t' ∧ c ≠ '\n' ∧ c ≠ '\r')
    (rest : List Char) : skipBlanks (c :: rest) = c :: rest := by
  simp [skipBlanks, h]

theorem skipBlanks_blank {c : Char} (h : c = ' ' ∨ c = '\n') (rest : List Char) :
    skipBlanks (c :: rest) = skipBlanks rest := by
  rcases h with rfl | rfl <;> simp [skipBlanks]

/-! ### Strings and words -/

theorem toList_string (s : String) :
    (string s).toList = '"' :: (s.toList.flatMap escaped ++ ['"']) := by
  simp [string]

theorem writes_string (s : String) : Writes (string s) (.string s) where
  trimmed rest := by
    rw [toList_string, List.cons_append, skipBlanks_cons (by decide)]
  read fuel room rest _ := by
    rw [toList_string, List.cons_append, List.append_assoc, List.singleton_append, value,
      text?_escaped]
    rfl

theorem writes_nothing : Writes "null" .nothing where
  trimmed rest := skipBlanks_cons (by decide) _
  read fuel room rest _ := rfl

theorem writes_boolean (b : Bool) : Writes (boolean b) (.boolean b) where
  trimmed rest := by
    cases b <;> exact skipBlanks_cons (by decide) _
  read fuel room rest _ := by
    cases b <;> rfl

/-- A string literal, or the literal of nothing. -/
theorem writes_stringOrNull (s : Option String) :
    Writes (stringOrNull s) ((s.map Value.string).getD .nothing) := by
  cases s with
  | none => exact writes_nothing
  | some s => exact writes_string s

/-! ### Integers -/

/-- The digits of a number start with a zero only if it is zero. -/
theorem eq_zero_of_head?_toDigits {n : Nat} (h : (Nat.toDigits 10 n).head? = some '0') : n = 0 := by
  -- The first digit is that of the number without its last digit, which is smaller.
  induction n using Nat.strongRecOn with
  | _ n ih =>
    by_cases hsmall : n < 10
    · have hdigit : ∀ m < 10, m.digitChar = '0' → m = 0 := by decide
      rw [Nat.toDigits_of_lt_base hsmall] at h
      exact hdigit n hsmall (Option.some.inj h)
    · have hpos : 0 < n / 10 := Nat.div_pos (Nat.not_lt.mp hsmall) (by decide)
      rw [Nat.toDigits_of_base_le (by decide) (Nat.not_lt.mp hsmall),
        List.head?_append_of_ne_nil _ Nat.toDigits_ne_nil] at h
      have hzero := ih (n / 10) (Nat.div_lt_self (by omega) (by decide)) h
      omega

theorem takeWhile_digits_append {digits rest : List Char} (h : ∀ c ∈ digits, c.isDigit)
    (hrest : EndsNumber rest) : (digits ++ rest).takeWhile Char.isDigit = digits := by
  rw [List.takeWhile_append_of_pos h]
  cases rest with
  | nil => simp
  | cons c rest =>
    have hc : c.isDigit = false := (hrest c rfl).1
    simp [hc]

theorem splitFraction_of_endsNumber {rest : List Char} (h : EndsNumber rest) :
    splitFraction rest = ([], rest) := by
  unfold splitFraction
  split
  · exact absurd rfl (h '.' rfl).2.1
  · rfl

theorem splitExponent_of_endsNumber {rest : List Char} (h : EndsNumber rest) :
    splitExponent rest = (none, rest) := by
  unfold splitExponent
  split
  · next e rest =>
    obtain ⟨-, -, hlower, hupper⟩ := h e rfl
    rw [if_neg (not_or.mpr ⟨hlower, hupper⟩)]
  · rfl

/-- Digits without a leading zero are read as the number they write, unless they are too many. -/
theorem unsigned_digits (negative : Bool) {digits rest : List Char} (hne : digits ≠ [])
    (hdigits : ∀ c ∈ digits, c.isDigit) (hzero : digits.head? = some '0' → digits = ['0'])
    (hrest : EndsNumber rest) :
    unsigned negative (digits ++ rest) =
      if Text.numeralLimit < digits.length then .error (.numeral ⟨digits.length⟩)
      else .ok (.integer (if negative then -(Binary64.digitsValue digits : Int)
        else Binary64.digitsValue digits), rest) := by
  have hempty : digits.isEmpty = false := by simpa using hne
  unfold unsigned
  extract_lets whole number
  -- The whole part ends behind a leading zero, but then there is no other digit.
  have hwhole : whole = digits := by
    simp only [whole]
    split
    · next tail heq =>
      have hhead : digits.head? = some '0' := by
        rw [← List.head?_append_of_ne_nil _ hne, heq]
        rfl
      exact (hzero hhead).symm
    · exact takeWhile_digits_append hdigits hrest
  clear_value whole
  subst hwhole
  simp only [hempty, List.drop_left, splitFraction_of_endsNumber hrest,
    splitExponent_of_endsNumber hrest, number, List.isEmpty_nil, Option.isNone_none, Bool.and_self,
    if_true, Bool.false_eq_true, if_false]

/-- The digits of a number that is not too long are read as that number. -/
theorem unsigned_toDigits (negative : Bool) {n : Nat} {rest : List Char}
    (hlength : (Nat.toDigits 10 n).length ≤ Text.numeralLimit) (hrest : EndsNumber rest) :
    unsigned negative (Nat.toDigits 10 n ++ rest) =
      .ok (.integer (if negative then -(n : Int) else n), rest) := by
  have hvalue : Binary64.digitsValue (Nat.toDigits 10 n) = n := Nat.ofDigitChars_ten_toDigits
  have hzero : (Nat.toDigits 10 n).head? = some '0' → Nat.toDigits 10 n = ['0'] := by
    intro hhead
    rw [eq_zero_of_head?_toDigits hhead, Nat.toDigits_zero]
  rw [unsigned_digits negative Nat.toDigits_ne_nil (fun _ => Text.isDigit_of_mem_toDigits) hzero
    hrest, if_neg (Nat.not_lt.mpr hlength), hvalue]

/-- No word begins with a digit. -/
theorem ne_of_isDigit {c w : Char} (hc : c.isDigit) (hw : w.isDigit = false) : w ≠ c := by
  rintro rfl
  rw [hw] at hc
  exact Bool.false_ne_true hc

theorem atom_of_isDigit {c : Char} (h : c.isDigit) (rest : List Char) :
    atom (c :: rest) = unsigned false (c :: rest) := by
  have hwords : words.find? (fun w => w.1.isPrefixOf (c :: rest)) = none := by
    simp [words, ne_of_isDigit h]
  rw [atom, hwords]
  exact fun _ heq => ne_of_isDigit h rfl (List.cons.inj heq).1.symm

theorem atom_minus {c : Char} (h : c.isDigit) (rest : List Char) :
    atom ('-' :: c :: rest) = unsigned true (c :: rest) := by
  have hwords : words.find? (fun w => w.1.isPrefixOf ('-' :: c :: rest)) = none := by
    simp [words, ne_of_isDigit h]
  rw [atom, hwords]

/-- What begins with none of these characters is no string, array or object. -/
theorem value_eq_atom {c : Char} (hquote : c ≠ '"') (hbracket : c ≠ '[') (hbrace : c ≠ '\x7b')
    (fuel room : Nat) (rest : List Char) :
    value (fuel + 1) room (c :: rest) = atom (c :: rest) := by
  rw [value]
  · exact fun _ heq => hquote (List.cons.inj heq).1
  · exact fun _ heq => hbracket (List.cons.inj heq).1
  · exact fun _ heq => hbrace (List.cons.inj heq).1

/-- The first digit of a number. -/
theorem exists_toDigits_eq_cons (n : Nat) :
    ∃ c digits, Nat.toDigits 10 n = c :: digits ∧ c.isDigit := by
  obtain ⟨c, digits, heq⟩ := List.exists_cons_of_ne_nil (Nat.toDigits_ne_nil (n := n) (b := 10))
  exact ⟨c, digits, heq, Text.isDigit_of_mem_toDigits (heq ▸ List.mem_cons_self)⟩

theorem writes_natural {n : Nat} (hlength : (Nat.toDigits 10 n).length ≤ Text.numeralLimit) :
    Writes (toString n) (.integer n) := by
  obtain ⟨c, digits, heq, hdigit⟩ := exists_toDigits_eq_cons n
  have htext : (toString n).toList = Nat.toDigits 10 n := by simp
  have hne : ∀ w : Char, w.isDigit = false → c ≠ w := fun w hw => (ne_of_isDigit hdigit hw).symm
  constructor
  · intro rest
    rw [htext, heq, List.cons_append]
    exact skipBlanks_cons ⟨hne _ rfl, hne _ rfl, hne _ rfl, hne _ rfl⟩ _
  · intro fuel room rest hrest
    rw [htext, heq, List.cons_append, value_eq_atom (hne _ rfl) (hne _ rfl) (hne _ rfl),
      atom_of_isDigit hdigit, ← List.cons_append, ← heq, unsigned_toDigits false hlength hrest]
    rfl

theorem toList_negSucc (n : Nat) :
    (toString (Int.negSucc n)).toList = '-' :: Nat.toDigits 10 (n + 1) := by
  change ("-" ++ (n + 1).repr).toList = _
  rw [String.toList_append, Nat.toList_repr]
  rfl

/-- An integer that is not too long. -/
theorem writes_integer {n : Int}
    (hlength : (Nat.toDigits 10 n.natAbs).length ≤ Text.numeralLimit) :
    Writes (toString n) (.integer n) := by
  cases n with
  | ofNat n => exact writes_natural hlength
  | negSucc n =>
    obtain ⟨c, digits, heq, hdigit⟩ := exists_toDigits_eq_cons (n + 1)
    have htext := toList_negSucc n
    constructor
    · intro rest
      rw [htext]
      exact skipBlanks_cons (by decide) _
    · intro fuel room rest hrest
      rw [htext, heq, List.cons_append, List.cons_append,
        value_eq_atom (by decide) (by decide) (by decide), atom_minus hdigit, ← List.cons_append,
        ← heq]
      exact unsigned_toDigits true hlength hrest

/-! ### Objects -/

/-- The blanks in an object: in front of each key, behind each colon, and in front of the closing
brace. -/
structure Layout where
  indent : List Char
  gap : List Char
  closing : List Char
  blank : ∀ c ∈ indent ++ gap ++ closing, c = ' ' ∨ c = '\n'

namespace Layout

/-- A line for each member. -/
def block : Layout := ⟨['\n', ' ', ' '], [' '], ['\n'], by simp⟩

/-- Everything on one line, without blanks. -/
def line : Layout := ⟨[], [], [], by simp⟩

/-- A member, without what separates it from others. -/
def member (l : Layout) (m : String × String) : List Char :=
  l.indent ++ ((string m.1).toList ++ ':' :: (l.gap ++ m.2.toList))

/-- An object with some members. -/
def object (l : Layout) (ms : List (String × String)) : List Char :=
  '\x7b' :: ([','].intercalate (ms.map l.member) ++ (l.closing ++ ['\x7d']))

end Layout

/-- A member and an entry of a table: the written value is read as the value of the key. -/
def WritesMember (m : String × String) (e : String × Value) : Prop :=
  m.1 = e.1 ∧ Writes m.2 e.2

theorem toList_line (ms : List (String × String)) : (line ms).toList = Layout.line.object ms := by
  have hmembers : ms.map Layout.line.member =
      ms.map (String.toList ∘ fun m => string m.1 ++ ":" ++ m.2) :=
    List.map_congr_left fun m _ => by simp [Layout.member, Layout.line]
  rw [Layout.object, hmembers]
  simp [line, Layout.line, String.toList_intercalate]

theorem toList_block {ms : List (String × String)} (hne : ms ≠ []) :
    (block ms).toList = Layout.block.object ms := by
  have hmembers : ms.map Layout.block.member =
      (ms.map (String.toList ∘ fun m => "  " ++ string m.1 ++ ": " ++ m.2)).map ('\n' :: ·) := by
    rw [List.map_map]
    exact List.map_congr_left fun m _ => by simp [Layout.member, Layout.block]
  rw [Layout.object, hmembers, ← cons_intercalate _ _ (by simpa using hne)]
  simp [block, Layout.block, String.toList_intercalate]

section Members

variable {l : Layout} {m : String × String} {e : String × Value}

theorem skipBlanks_blanks {blanks : List Char} (h : ∀ c ∈ blanks, c = ' ' ∨ c = '\n')
    (rest : List Char) : skipBlanks (blanks ++ rest) = skipBlanks rest := by
  induction blanks with
  | nil => rfl
  | cons c blanks ih =>
    obtain ⟨hc, hblanks⟩ := List.forall_mem_cons.mp h
    rw [List.cons_append, skipBlanks_blank hc, ih hblanks]

theorem Layout.skipBlanks_indent (l : Layout) (rest : List Char) :
    skipBlanks (l.indent ++ rest) = skipBlanks rest :=
  skipBlanks_blanks (fun c hc => l.blank c (by simp [hc])) rest

theorem Layout.skipBlanks_gap (l : Layout) (rest : List Char) :
    skipBlanks (l.gap ++ rest) = skipBlanks rest :=
  skipBlanks_blanks (fun c hc => l.blank c (by simp [hc])) rest

theorem Layout.skipBlanks_closing (l : Layout) (rest : List Char) :
    skipBlanks (l.closing ++ '\x7d' :: rest) = '\x7d' :: rest := by
  rw [skipBlanks_blanks (fun c hc => l.blank c (by simp [hc])), skipBlanks_cons (by decide)]

/-- A number is at its end in front of the closing brace. -/
theorem Layout.endsNumber_closing (l : Layout) (rest : List Char) :
    EndsNumber (l.closing ++ '\x7d' :: rest) := by
  intro c hc
  have hfirst : c = ' ' ∨ c = '\n' ∨ c = '\x7d' := by
    cases hclosing : l.closing with
    | nil =>
      rw [hclosing] at hc
      exact .inr (.inr (Option.some.inj hc).symm)
    | cons blank blanks =>
      rw [hclosing] at hc
      obtain rfl : blank = c := Option.some.inj hc
      exact (l.blank blank (by simp [hclosing])).imp_right .inl
  rcases hfirst with rfl | rfl | rfl <;> decide

theorem skipBlanks_member (l : Layout) (m : String × String) (rest : List Char) :
    skipBlanks (l.member m ++ rest) =
      '"' :: (m.1.toList.flatMap escaped ++ '"' :: ':' :: (l.gap ++ (m.2.toList ++ rest))) := by
  simp only [Layout.member, List.append_assoc, l.skipBlanks_indent, toList_string, List.cons_append,
    List.nil_append]
  exact skipBlanks_cons (by decide) _

/-- The key and the value of a member are read. It is the last one before a closing brace, and the
next one is read behind a comma. -/
theorem members_member (l : Layout) (h : WritesMember m e) (fuel room : Nat) (t : Table)
    {rest : List Char} (hrest : EndsNumber rest) (rest' : List Char) :
    (skipBlanks rest = '\x7d' :: rest' →
      members (fuel + 2) room t (skipBlanks (l.member m ++ rest)) =
        .ok (Table.put t e.1 e.2, rest')) ∧
    (skipBlanks rest = ',' :: rest' →
      members (fuel + 2) room t (skipBlanks (l.member m ++ rest)) =
        members (fuel + 1) room (Table.put t e.1 e.2) (skipBlanks rest')) := by
  obtain ⟨hkey, hwrites⟩ := h
  have hcolon : skipBlanks (':' :: (l.gap ++ (m.2.toList ++ rest))) =
      ':' :: (l.gap ++ (m.2.toList ++ rest)) := skipBlanks_cons (by decide) _
  have hvalue : skipBlanks (l.gap ++ (m.2.toList ++ rest)) = m.2.toList ++ rest := by
    rw [l.skipBlanks_gap, hwrites.trimmed]
  rw [skipBlanks_member, members, text?_escaped]
  simp only [hcolon, hvalue, hwrites.read fuel room hrest, Option.map_some, Option.getD_some, hkey]
  constructor
  · intro hlast
    simp only [hlast]
  · intro hnext
    simp only [hnext]

end Members

/-- Members are read as entries behind those that were read before. -/
theorem members_intercalate (l : Layout) {ms : List (String × String)}
    {es : List (String × Value)} (h : List.Forall₂ WritesMember ms es) (hne : ms ≠ []) {fuel : Nat}
    (hfuel : ms.length < fuel) (room : Nat) (t : Table) (rest : List Char) :
    members fuel room t
        (skipBlanks ([','].intercalate (ms.map l.member) ++ (l.closing ++ '\x7d' :: rest))) =
      .ok (es.foldl (fun t e => Table.put t e.1 e.2) t, rest) := by
  -- By induction on the members: all but the last are followed by a comma.
  induction h generalizing fuel t with
  | nil => exact absurd rfl hne
  | @cons m e ms es hm hms ih =>
    obtain ⟨fuel, rfl⟩ : ∃ k, fuel = k + 2 := by
      rw [List.length_cons] at hfuel
      exact ⟨fuel - 2, by omega⟩
    cases hms with
    | nil =>
      rw [List.map_singleton, List.intercalate_singleton]
      exact (members_member l hm fuel room t (l.endsNumber_closing rest) rest).1
        (l.skipBlanks_closing rest)
    | @cons m' e' ms es hm' hms =>
      rw [List.map_cons, List.map_cons, List.intercalate_cons_cons, List.append_assoc,
        List.append_assoc, List.singleton_append]
      have hnext : ∀ following, skipBlanks (',' :: following) = ',' :: following :=
        skipBlanks_cons (by decide)
      rw [(members_member l hm fuel room t (by simp [EndsNumber]) _).2 (hnext _)]
      exact ih (by simp) (by simpa using hfuel) _

/-- Every member takes a character at least. -/
theorem length_le_length_intercalate (l : Layout) (ms : List (String × String)) :
    ms.length ≤ ([','].intercalate (ms.map l.member)).length := by
  induction ms with
  | nil => exact Nat.zero_le _
  | cons m ms ih =>
    cases ms with
    | nil =>
      simp only [List.map_cons, List.map_nil, List.intercalate_singleton, Layout.member,
        List.length_append, List.length_cons, List.length_nil]
      omega
    | cons m' ms =>
      rw [List.map_cons, List.map_cons, List.intercalate_cons_cons]
      simp only [List.length_append, List.length_cons, List.map_cons] at ih ⊢
      omega

/-- What is behind the opening brace starts with the quote of a key. -/
theorem exists_skipBlanks_members (l : Layout) {ms : List (String × String)} (hne : ms ≠ [])
    (rest : List Char) :
    ∃ behind, skipBlanks ([','].intercalate (ms.map l.member) ++ rest) = '"' :: behind := by
  obtain ⟨m, ms, rfl⟩ := List.exists_cons_of_ne_nil hne
  cases ms with
  | nil =>
    rw [List.map_singleton, List.intercalate_singleton, skipBlanks_member]
    exact ⟨_, rfl⟩
  | cons m' ms =>
    rw [List.map_cons, List.map_cons, List.intercalate_cons_cons, List.append_assoc,
      List.append_assoc, skipBlanks_member]
    exact ⟨_, rfl⟩

/-- A written object is read as the table of its members, however it is laid out. -/
theorem read_object (l : Layout) {text : String} {ms : List (String × String)}
    {es : List (String × Value)} (htext : text.toList = l.object ms)
    (h : List.Forall₂ WritesMember ms es) (hne : ms ≠ []) :
    read text = .ok (.table (Table.ofEntries es)) := by
  set body := [','].intercalate (ms.map l.member) ++ (l.closing ++ ['\x7d']) with hbody
  have htext : text.toList = '\x7b' :: body := htext
  have hfuel : ms.length < 2 * text.toList.length := by
    have := length_le_length_intercalate l ms
    simp only [htext, hbody, List.length_cons, List.length_append]
    omega
  have hmembers := members_intercalate l h hne hfuel (depthLimit - 1) [] []
  rw [← hbody] at hmembers
  obtain ⟨behind, hquote⟩ : ∃ behind, skipBlanks body = '"' :: behind :=
    exists_skipBlanks_members l hne _
  -- The quote tells the object from an empty one.
  have hvalue : value (2 * text.toList.length + 1) depthLimit ('\x7b' :: body) =
      .ok (.table (Table.ofEntries es), []) := by
    rw [hquote] at hmembers
    rw [value, if_neg (by decide), hquote]
    change (members (2 * text.toList.length) (depthLimit - 1) [] ('"' :: behind)).map
      (fun r => (Value.table r.1, r.2)) = _
    rw [hmembers]
    rfl
  have hfirst : skipBlanks text.toList = '\x7b' :: body := by
    rw [htext]
    exact skipBlanks_cons (by decide) _
  simp only [read, hfirst, hvalue]
  rfl

/-- An object with a line for each member is read as the table of its members. -/
theorem read_block {ms : List (String × String)} {es : List (String × Value)}
    (h : List.Forall₂ WritesMember ms es) (hne : ms ≠ []) :
    read (block ms) = .ok (.table (Table.ofEntries es)) :=
  read_object .block (toList_block hne) h hne

/-- An object on one line is read as the table of its members. -/
theorem read_line {ms : List (String × String)} {es : List (String × Value)}
    (h : List.Forall₂ WritesMember ms es) (hne : ms ≠ []) :
    read (line ms) = .ok (.table (Table.ofEntries es)) :=
  read_object .line (toList_line ms) h hne

end LinterSuite.Json
