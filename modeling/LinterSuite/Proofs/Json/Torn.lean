import LinterSuite.Proofs.Json.Blocks
import LinterSuite.Proofs.Text.Utf8

/-!
# Objects that were cut short are not read

A written object is closed by its last character only. Wherever it was cut before, in a blank, in a
key, in a value or between them, what is left is refused as malformed. It is never taken for another
document, and never refused for a number or for its depth. Since documents are written in ASCII, the
same holds of their bytes.

## Main definitions

* `Json.CutShort`: a beginning of a text with something missing
* `Json.Tears`: a text that, cut short, is refused or read up to its end

## Main results

* `Json.text?_of_cutShort`: a string literal needs its closing quote
* `Json.tears_string`, `Json.tears_integer`, `Json.tears_boolean`, `Json.tears_stringOrNull`: values
  as they are written
* `Json.read_of_cutShort`: an object that was cut short is malformed, however it is laid out
* `Json.read_block_of_cutShort`: in particular one with a line for each member
* `Json.isAscii_escaped`, `Json.isAscii_string`: string literals are ASCII
* `Json.exists_of_prefix_block`: bytes that were cut short are those of a malformed text
-/

namespace LinterSuite.Json

open Text (IsAscii isAscii_cons isAscii_append)

variable {p text : List Char}

/-! ### Beginnings -/

/-- A beginning of a text, of which something is missing. -/
def CutShort (p text : List Char) : Prop := ∃ c more, text = p ++ c :: more

theorem cutShort_iff : CutShort p text ↔ p <+: text ∧ p ≠ text := by
  constructor
  · rintro ⟨c, more, rfl⟩
    exact ⟨List.prefix_append _ _, by simp⟩
  · rintro ⟨⟨rest, rfl⟩, hne⟩
    cases rest with
    | nil => exact absurd (List.append_nil p).symm hne
    | cons c more => exact ⟨c, more, rfl⟩

theorem cutShort_iff_take : CutShort p text ↔ ∃ n < text.length, p = text.take n := by
  constructor
  · rintro ⟨c, more, rfl⟩
    exact ⟨p.length, by simp, by simp⟩
  · rintro ⟨n, hn, rfl⟩
    refine ⟨text[n], text.drop (n + 1), ?_⟩
    rw [List.getElem_cons_drop, List.take_append_drop]

theorem not_cutShort_nil : ¬ CutShort p [] := by
  rintro ⟨c, more, h⟩
  simp at h

theorem cutShort_cons_iff {c : Char} :
    CutShort p (c :: text) ↔ p = [] ∨ ∃ p', p = c :: p' ∧ CutShort p' text := by
  cases p with
  | nil => simp [CutShort]
  | cons d p =>
    simp only [CutShort, List.cons_append, List.cons.injEq, reduceCtorEq, false_or]
    constructor
    · rintro ⟨e, more, rfl, rfl⟩
      exact ⟨p, ⟨rfl, rfl⟩, e, more, rfl⟩
    · rintro ⟨_, ⟨rfl, rfl⟩, e, more, rfl⟩
      exact ⟨e, more, rfl, rfl⟩

/-- The cut is in the first part, or in the second. -/
theorem cutShort_append_iff {xs ys : List Char} :
    CutShort p (xs ++ ys) ↔ CutShort p xs ∨ ∃ p', p = xs ++ p' ∧ CutShort p' ys := by
  induction xs generalizing p with
  | nil => simp [not_cutShort_nil]
  | cons x xs ih =>
    rw [List.cons_append, cutShort_cons_iff, cutShort_cons_iff, or_assoc]
    refine or_congr_right ?_
    constructor
    · rintro ⟨p, rfl, hp⟩
      exact (ih.mp hp).imp (fun hx => ⟨p, rfl, hx⟩) fun ⟨p', hp', hy⟩ => ⟨p', by rw [hp']; rfl, hy⟩
    · rintro (⟨p, rfl, hx⟩ | ⟨p', rfl, hy⟩)
      · exact ⟨p, rfl, ih.mpr (.inl hx)⟩
      · exact ⟨xs ++ p', rfl, ih.mpr (.inr ⟨p', rfl, hy⟩)⟩

/-- Nothing is left of blanks that were cut short. -/
theorem skipBlanks_of_cutShort (htext : ∀ c ∈ text, c = ' ' ∨ c = '\n') (h : CutShort p text) :
    skipBlanks p = [] := by
  obtain ⟨c, more, rfl⟩ := h
  have hp := skipBlanks_blanks (fun d hd => htext d (List.mem_append_left _ hd)) []
  rwa [List.append_nil] at hp

/-- What a text begins with behind its blanks is there also if it was cut short, unless nothing is
left. -/
theorem skipBlanks_eq_of_cutShort {c : Char} {rest : List Char} (h : CutShort p text)
    (htext : skipBlanks text = c :: rest) :
    skipBlanks p = [] ∨ ∃ rest', skipBlanks p = c :: rest' := by
  obtain ⟨d, more, rfl⟩ := h
  cases hp : skipBlanks p with
  | nil => exact .inl rfl
  | cons c' rest' =>
    have happend : skipBlanks (p ++ d :: more) = c' :: (rest' ++ d :: more) := by
      unfold skipBlanks at hp ⊢
      rw [List.dropWhile_append, hp]
      rfl
    obtain ⟨rfl, -⟩ := List.cons.inj (happend.symm.trans htext)
    exact .inr ⟨rest', rfl⟩

theorem endsNumber_of_cutShort (h : CutShort p text) (htext : EndsNumber text) : EndsNumber p := by
  obtain ⟨d, more, rfl⟩ := h
  intro c hc
  refine htext c ?_
  rw [List.head?_append, Option.mem_def.mp hc]
  rfl

/-! ### Values -/

/-- What is read as a string literal stays so, whatever is put behind. -/
theorem stringBody?_append {cs rest : List Char} {ns : List Nat}
    (h : stringBody? cs = some (ns, rest)) (more : List Char) :
    stringBody? (cs ++ more) = some (ns, rest ++ more) := by
  -- By induction on the literal: what is read next was there before anything was put behind.
  induction cs using stringBody?.induct generalizing ns rest with
  | case1 => simp [stringBody?] at h
  | case2 cs =>
    obtain ⟨rfl, rfl⟩ : [] = ns ∧ cs = rest := by simpa [stringBody?] using h
    simp [stringBody?]
  | case3 a b c d cs ih =>
    simp only [stringBody?, Option.bind_eq_bind, Option.bind_eq_some_iff] at h
    obtain ⟨n, hunit, ⟨ns', rest'⟩, hbody, heq⟩ := h
    obtain ⟨rfl, rfl⟩ := Prod.mk.inj (Option.some.inj heq)
    simp only [List.cons_append, stringBody?, hunit, ih hbody]
    rfl
  | case4 e cs hshort ih =>
    rw [stringBody?] at h
    · simp only [Option.bind_eq_bind, Option.bind_eq_some_iff] at h
      obtain ⟨n, hescape, ⟨ns', rest'⟩, hbody, heq⟩ := h
      obtain ⟨rfl, rfl⟩ := Prod.mk.inj (Option.some.inj heq)
      -- The four digits of a numeric escape may come with what is put behind, but without them it
      -- was not read.
      have hne : e ≠ 'u' := by
        rintro rfl
        cases hescape
      rw [List.cons_append, List.cons_append, stringBody?_escape hne hescape, ih hbody]
      rfl
    · exact hshort
  | case5 c cs hquote hunit hescape hbad =>
    rw [stringBody?, if_pos hbad] at h
    · cases h
    · exact hquote
    · exact hunit
    · exact hescape
  | case6 c cs hquote hunit hescape hgood ih =>
    obtain ⟨hcontrol, hslash⟩ := not_or.mp hgood
    rw [stringBody?_plain hquote hslash (Nat.not_lt.mp hcontrol)] at h
    obtain ⟨⟨ns', rest'⟩, hbody, heq⟩ := Option.map_eq_some_iff.mp h
    obtain ⟨rfl, rfl⟩ := Prod.mk.inj heq
    rw [List.cons_append, stringBody?_plain hquote hslash (Nat.not_lt.mp hcontrol), ih hbody]
    rfl

/-- A string literal needs its closing quote. -/
theorem text?_of_cutShort {cs : List Char} (h : CutShort p (cs.flatMap escaped ++ ['"'])) :
    text? p = none := by
  obtain ⟨c, more, hcut⟩ := h
  rw [text?, Option.map_eq_none_iff, Option.eq_none_iff_forall_ne_some]
  rintro ⟨ns, rest⟩ hbody
  -- The whole literal would be read with something behind it.
  have hlonger := stringBody?_append hbody (c :: more)
  rw [← hcut, stringBody?_flatMap_escaped] at hlonger
  simp at hlonger

/-- A text that, cut short, is refused, or read as another value up to its end. -/
def Tears (text : List Char) : Prop :=
  ∀ p, CutShort p text → ∀ fuel room, value fuel room (skipBlanks p) = .error .malformed ∨
    ∃ v, value fuel room (skipBlanks p) = .ok (v, [])

theorem value_nil (fuel room : Nat) : value fuel room [] = .error .malformed := by
  cases fuel <;> rfl

/-- Only what is behind the first character can be cut. -/
theorem tears_cons {c : Char} {cs : List Char} (hc : c ≠ ' ' ∧ c ≠ '\t' ∧ c ≠ '\n' ∧ c ≠ '\r')
    (h : ∀ p, CutShort p cs → ∀ fuel room, value (fuel + 1) room (c :: p) = .error .malformed ∨
      ∃ v, value (fuel + 1) room (c :: p) = .ok (v, [])) : Tears (c :: cs) := by
  intro p hp fuel room
  rcases cutShort_cons_iff.mp hp with rfl | ⟨behind, rfl, hbehind⟩
  · exact .inl (value_nil fuel room)
  · rw [skipBlanks_cons hc]
    cases fuel with
    | zero => exact .inl rfl
    | succ fuel => exact h behind hbehind fuel room

theorem tears_string (s : String) : Tears (string s).toList := by
  rw [toList_string]
  refine tears_cons (by decide) fun p hp fuel room => .inl ?_
  rw [value, text?_of_cutShort hp]

/-- No word begins another one. -/
theorem tears_word {c : Char} {cs : List Char}
    (hc : c ≠ ' ' ∧ c ≠ '\t' ∧ c ≠ '\n' ∧ c ≠ '\r')
    (h : ∀ n < cs.length, ∀ fuel room,
      value (fuel + 1) room (c :: cs.take n) = .error .malformed) : Tears (c :: cs) := by
  refine tears_cons hc fun p hp fuel room => .inl ?_
  obtain ⟨n, hn, rfl⟩ := cutShort_iff_take.mp hp
  exact h n hn fuel room

theorem tears_nothing : Tears "null".toList := by
  change Tears ['n', 'u', 'l', 'l']
  refine tears_word (by decide) fun n hn fuel room => ?_
  obtain rfl | rfl | rfl : n = 0 ∨ n = 1 ∨ n = 2 := by
    simp only [List.length_cons, List.length_nil] at hn
    omega
  all_goals rfl

theorem tears_boolean (b : Bool) : Tears (boolean b).toList := by
  cases b with
  | false =>
    change Tears ['f', 'a', 'l', 's', 'e']
    refine tears_word (by decide) fun n hn fuel room => ?_
    obtain rfl | rfl | rfl | rfl : n = 0 ∨ n = 1 ∨ n = 2 ∨ n = 3 := by
      simp only [List.length_cons, List.length_nil] at hn
      omega
    all_goals rfl
  | true =>
    change Tears ['t', 'r', 'u', 'e']
    refine tears_word (by decide) fun n hn fuel room => ?_
    obtain rfl | rfl | rfl : n = 0 ∨ n = 1 ∨ n = 2 := by
      simp only [List.length_cons, List.length_nil] at hn
      omega
    all_goals rfl

theorem tears_stringOrNull (s : Option String) : Tears (stringOrNull s).toList := by
  cases s with
  | none => exact tears_nothing
  | some s => exact tears_string s

theorem isDigit_of_cutShort {n : Nat} (h : CutShort p (Nat.toDigits 10 n)) {c : Char} (hc : c ∈ p) :
    c.isDigit := by
  obtain ⟨d, more, hdigits⟩ := h
  refine Text.isDigit_of_mem_toDigits (n := n) ?_
  rw [hdigits]
  exact List.mem_append_left _ hc

/-- Digits that were cut short are read as a smaller number, if there are any left. -/
theorem unsigned_of_cutShort {n : Nat} (negative : Bool)
    (hlength : (Nat.toDigits 10 n).length ≤ Text.numeralLimit)
    (h : CutShort p (Nat.toDigits 10 n)) :
    unsigned negative p = .error .malformed ∨ ∃ v, unsigned negative p = .ok (v, []) := by
  by_cases hne : p = []
  · rw [hne]
    exact .inl rfl
  have hall : ∀ c ∈ p, c.isDigit := fun _ => isDigit_of_cutShort h
  obtain ⟨c, more, hdigits⟩ := h
  -- Only zero begins with a zero, and nothing is left of it when it is cut.
  have hzero : p.head? = some '0' → p = ['0'] := by
    intro hhead
    have hnumber : n = 0 :=
      eq_zero_of_head?_toDigits (by rw [hdigits, List.head?_append, hhead]; rfl)
    rw [hnumber, Nat.toDigits_zero] at hdigits
    obtain ⟨d, p, rfl⟩ := List.exists_cons_of_ne_nil hne
    simp at hdigits
  have hshort : p.length ≤ Text.numeralLimit := by
    rw [hdigits, List.length_append] at hlength
    omega
  have hends : EndsNumber [] := by simp [EndsNumber]
  have hread := unsigned_digits negative hne hall hzero hends
  rw [List.append_nil, if_neg (Nat.not_lt.mpr hshort)] at hread
  exact .inr ⟨_, hread⟩

theorem tears_natural {n : Nat} (hlength : (Nat.toDigits 10 n).length ≤ Text.numeralLimit) :
    Tears (toString n).toList := by
  intro p hp fuel room
  have htext : (toString n).toList = Nat.toDigits 10 n := by simp
  rw [htext] at hp
  cases p with
  | nil => exact .inl (value_nil fuel room)
  | cons c p =>
    have hdigit : c.isDigit := isDigit_of_cutShort hp List.mem_cons_self
    have hne : ∀ w : Char, w.isDigit = false → c ≠ w := fun w hw => (ne_of_isDigit hdigit hw).symm
    rw [skipBlanks_cons ⟨hne _ rfl, hne _ rfl, hne _ rfl, hne _ rfl⟩]
    cases fuel with
    | zero => exact .inl rfl
    | succ fuel =>
      rw [value_eq_atom (hne _ rfl) (hne _ rfl) (hne _ rfl), atom_of_isDigit hdigit]
      exact unsigned_of_cutShort false hlength hp

theorem tears_integer {n : Int}
    (hlength : (Nat.toDigits 10 n.natAbs).length ≤ Text.numeralLimit) :
    Tears (toString n).toList := by
  cases n with
  | ofNat n => exact tears_natural hlength
  | negSucc n =>
    rw [toList_negSucc]
    refine tears_cons (by decide) fun p hp fuel room => ?_
    cases p with
    | nil => exact .inl rfl
    | cons c p =>
      have hdigit : c.isDigit := isDigit_of_cutShort hp List.mem_cons_self
      rw [value_eq_atom (by decide) (by decide) (by decide), atom_minus hdigit]
      exact unsigned_of_cutShort true hlength hp

/-! ### Objects -/

section Members

variable {l : Layout} {m : String × String} {e : String × Value} {after : List Char}
  {room : Nat}

/-- A text behind the value of a member that, cut short, has nothing left, or a comma with what is
no member. -/
def Breaks (room : Nat) (after : List Char) : Prop :=
  ∀ p, CutShort p after → skipBlanks p = [] ∨ ∃ q, skipBlanks p = ',' :: q ∧
    ∀ fuel t, members fuel room t (skipBlanks q) = .error .malformed

theorem members_nil (fuel room : Nat) (t : Table) : members fuel room t [] = .error .malformed := by
  cases fuel <;> rfl

/-- The cut is behind the colon of a member. -/
theorem members_of_cutShort_value (hwrites : Writes m.2 e.2) (htears : Tears m.2.toList)
    (hends : EndsNumber after) (hbreaks : Breaks room after)
    (h : CutShort p (l.gap ++ (m.2.toList ++ after))) (fuel : Nat) (t : Table) :
    members (fuel + 1) room t ('"' :: (m.1.toList.flatMap escaped ++ '"' :: ':' :: p)) =
      .error .malformed := by
  have hcolon : skipBlanks (':' :: p) = ':' :: p := skipBlanks_cons (by decide) p
  rw [members, text?_escaped]
  simp only [hcolon]
  rcases cutShort_append_iff.mp h with hgap | ⟨q, rfl, hq⟩
  · have hblank : skipBlanks p = [] :=
      skipBlanks_of_cutShort (fun c hc => l.blank c (by simp [hc])) hgap
    simp only [hblank, value_nil]
  rw [l.skipBlanks_gap]
  rcases cutShort_append_iff.mp hq with hvalue | ⟨p, rfl, hafter⟩
  · rcases htears q hvalue fuel room with hbad | ⟨v, hshort⟩
    · simp only [hbad]
    · -- A shorter value is read, but then the text is at its end.
      simp only [hshort]
      rfl
  · rw [hwrites.trimmed]
    cases fuel with
    | zero => rfl
    | succ fuel =>
      simp only [hwrites.read fuel room (endsNumber_of_cutShort hafter hends)]
      rcases hbreaks p hafter with hnothing | ⟨q, hcomma, hq⟩
      · simp only [hnothing]
      · simp only [hcomma, hq]

/-- The cut is in a member or behind it. -/
theorem members_of_cutShort_member (hwrites : Writes m.2 e.2) (htears : Tears m.2.toList)
    (hends : EndsNumber after) (hbreaks : Breaks room after)
    (h : CutShort p (l.member m ++ after)) (fuel : Nat) (t : Table) :
    members fuel room t (skipBlanks p) = .error .malformed := by
  have htext : l.member m ++ after = l.indent ++ ('"' :: ((m.1.toList.flatMap escaped ++ ['"']) ++
      ':' :: (l.gap ++ (m.2.toList ++ after)))) := by
    simp [Layout.member, toList_string]
  rw [htext] at h
  -- From left to right: the cut is in the blanks, at the quote, in the key, at the colon, or behind
  -- it.
  rcases cutShort_append_iff.mp h with hindent | ⟨p₁, rfl, h₁⟩
  · have hblank : skipBlanks p = [] :=
      skipBlanks_of_cutShort (fun c hc => l.blank c (by simp [hc])) hindent
    rw [hblank, members_nil]
  rw [l.skipBlanks_indent]
  rcases cutShort_cons_iff.mp h₁ with rfl | ⟨p₂, rfl, h₂⟩
  · exact members_nil fuel room t
  rw [skipBlanks_cons (by decide)]
  cases fuel with
  | zero => rfl
  | succ fuel =>
    rcases cutShort_append_iff.mp h₂ with hkey | ⟨p₃, rfl, h₃⟩
    · rw [members, text?_of_cutShort hkey]
    rw [List.append_assoc, List.singleton_append]
    rcases cutShort_cons_iff.mp h₃ with rfl | ⟨p₄, rfl, h₄⟩
    · rw [members, text?_escaped]
      rfl
    · exact members_of_cutShort_value hwrites htears hends hbreaks h₄ fuel t

end Members

theorem Layout.breaks_closing (l : Layout) (room : Nat) : Breaks room (l.closing ++ ['\x7d']) := by
  intro p hp
  left
  rcases cutShort_append_iff.mp hp with hclosing | ⟨p, rfl, hbrace⟩
  · exact skipBlanks_of_cutShort (fun c hc => l.blank c (by simp [hc])) hclosing
  · -- All that is missing is the brace.
    obtain rfl : p = [] := by simpa [cutShort_cons_iff, not_cutShort_nil] using hbrace
    exact skipBlanks_blanks (fun c hc => l.blank c (by simp [hc])) []

/-- Members that were cut short are malformed. -/
theorem members_of_cutShort (l : Layout) {ms : List (String × String)}
    {es : List (String × Value)} (h : List.Forall₂ WritesMember ms es)
    (htears : ∀ m ∈ ms, Tears m.2.toList) (hne : ms ≠ [])
    (hp : CutShort p ([','].intercalate (ms.map l.member) ++ (l.closing ++ ['\x7d'])))
    (fuel room : Nat) (t : Table) :
    members fuel room t (skipBlanks p) = .error .malformed := by
  -- By induction on the members: behind all but the last there is a comma.
  induction h generalizing p fuel t with
  | nil => exact absurd rfl hne
  | @cons m e ms es hm hms ih =>
    obtain ⟨hfirst, hothers⟩ := List.forall_mem_cons.mp htears
    cases hms with
    | nil =>
      rw [List.map_singleton, List.intercalate_singleton] at hp
      exact members_of_cutShort_member hm.2 hfirst (l.endsNumber_closing [])
        (l.breaks_closing room) hp fuel t
    | @cons m' e' ms es hm' hms =>
      rw [List.map_cons, List.map_cons, List.intercalate_cons_cons, List.append_assoc,
        List.append_assoc, List.singleton_append] at hp
      refine members_of_cutShort_member hm.2 hfirst (by simp [EndsNumber]) ?_ hp fuel t
      intro p hp
      rcases cutShort_cons_iff.mp hp with rfl | ⟨q, rfl, hq⟩
      · exact .inl rfl
      · exact .inr ⟨q, skipBlanks_cons (by decide) q, ih hothers (by simp) hq⟩

/-- An object that was cut short is malformed, however it is laid out. -/
theorem read_of_cutShort (l : Layout) {text : String} {ms : List (String × String)}
    {es : List (String × Value)} (h : List.Forall₂ WritesMember ms es)
    (htears : ∀ m ∈ ms, Tears m.2.toList) (hne : ms ≠ [])
    (hcut : CutShort text.toList (l.object ms)) : read text = .error .malformed := by
  unfold read
  rcases cutShort_cons_iff.mp hcut with hnil | ⟨p, heq, hp⟩
  · rw [hnil]
    rfl
  have hmembers :=
    members_of_cutShort l h htears hne hp (2 * text.toList.length) (depthLimit - 1) []
  -- A closing brace right behind the opening one would be there in the whole object too.
  obtain ⟨behind, hquote⟩ := exists_skipBlanks_members l hne (l.closing ++ ['\x7d'])
  have hfirst : skipBlanks p = [] ∨ ∃ rest, skipBlanks p = '"' :: rest :=
    skipBlanks_eq_of_cutShort hp hquote
  have hvalue :
      value (2 * text.toList.length + 1) depthLimit ('\x7b' :: p) = .error .malformed := by
    rw [value, if_neg (by decide)]
    rcases hfirst with hnothing | ⟨rest, hrest⟩
    · rw [hnothing] at hmembers ⊢
      simp only [hmembers]
      rfl
    · rw [hrest] at hmembers ⊢
      change (members (2 * text.toList.length) (depthLimit - 1) [] ('"' :: rest)).map
        (fun r => (Value.table r.1, r.2)) = _
      rw [hmembers]
      rfl
  have hblank : skipBlanks text.toList = '\x7b' :: p := by
    rw [heq]
    exact skipBlanks_cons (by decide) p
  simp only [hblank, hvalue]

/-- An object with a line for each member that was cut short is malformed. -/
theorem read_block_of_cutShort {text : String} {ms : List (String × String)}
    {es : List (String × Value)} (h : List.Forall₂ WritesMember ms es)
    (htears : ∀ m ∈ ms, Tears m.2.toList) (hne : ms ≠ [])
    (hcut : CutShort text.toList (block ms).toList) : read text = .error .malformed := by
  rw [toList_block hne] at hcut
  exact read_of_cutShort .block h htears hne hcut

/-! ### Bytes -/

theorem isAscii_hexDigits (width n : Nat) : IsAscii (Text.hexDigits width n) := by
  have hdigit : ∀ m < 16, (Text.hexDigit m).toNat < 0x80 := by decide
  induction width generalizing n with
  | zero => exact fun c hc => absurd hc List.not_mem_nil
  | succ width ih =>
    rw [Text.hexDigits, isAscii_append]
    refine ⟨ih _, fun c hc => ?_⟩
    rw [List.mem_singleton.mp hc]
    exact hdigit _ (Nat.mod_lt _ (by decide))

theorem isAscii_unitEscape (n : Nat) : IsAscii (unitEscape n) :=
  isAscii_cons.mpr ⟨by decide, isAscii_cons.mpr ⟨by decide, isAscii_hexDigits 4 n⟩⟩

/-- Every other character is an escape. -/
theorem isAscii_escaped (c : Char) : IsAscii (escaped c) := by
  unfold escaped
  split_ifs with hself hnewline hreturn htab hback hfeed hplain hbasic
  · rcases hself with rfl | rfl <;> decide
  · decide
  · decide
  · decide
  · decide
  · decide
  · intro d hd
    rw [List.mem_singleton.mp hd]
    omega
  · exact isAscii_unitEscape _
  · exact isAscii_append.mpr ⟨isAscii_unitEscape _, isAscii_unitEscape _⟩

theorem isAscii_string (s : String) : IsAscii (string s).toList := by
  rw [toList_string, isAscii_cons, isAscii_append]
  refine ⟨by decide, fun c hc => ?_, by decide⟩
  obtain ⟨d, -, hd⟩ := List.mem_flatMap.mp hc
  exact isAscii_escaped d c hd

theorem isAscii_stringOrNull (s : Option String) : IsAscii (stringOrNull s).toList := by
  cases s with
  | none => decide
  | some s => exact isAscii_string s

theorem isAscii_boolean (b : Bool) : IsAscii (boolean b).toList := by
  cases b <;> decide

theorem isAscii_toDigits (n : Nat) : IsAscii (Nat.toDigits 10 n) := by
  intro c hc
  have hrange := Text.toNat_of_isDigit (Text.isDigit_of_mem_toDigits hc)
  omega

theorem isAscii_integer (n : Int) : IsAscii (toString n).toList := by
  cases n with
  | ofNat n =>
    have htext : (toString (Int.ofNat n)).toList = Nat.toDigits 10 n := Nat.toList_repr
    rw [htext]
    exact isAscii_toDigits n
  | negSucc n =>
    rw [toList_negSucc, isAscii_cons]
    exact ⟨by decide, isAscii_toDigits _⟩

theorem Layout.isAscii_object (l : Layout) {ms : List (String × String)}
    (h : ∀ m ∈ ms, IsAscii m.2.toList) : IsAscii (l.object ms) := by
  have hblank : ∀ blanks : List Char, (∀ c ∈ blanks, c = ' ' ∨ c = '\n') → IsAscii blanks := by
    intro blanks hblanks c hc
    rcases hblanks c hc with rfl | rfl <;> decide
  rw [Layout.object, isAscii_cons, isAscii_append, isAscii_append]
  refine ⟨by decide, fun c hc => ?_, hblank _ fun c hc => l.blank c (by simp [hc]), by decide⟩
  rcases mem_or_mem_of_mem_intercalate hc with hcomma | ⟨part, hpart, hc⟩
  · rw [List.mem_singleton.mp hcomma]
    decide
  · obtain ⟨m, hm, rfl⟩ := List.mem_map.mp hpart
    have hmember : IsAscii (l.member m) := by
      rw [Layout.member, isAscii_append, isAscii_append, isAscii_cons, isAscii_append]
      exact ⟨hblank _ fun c hc => l.blank c (by simp [hc]), isAscii_string _, by decide,
        hblank _ fun c hc => l.blank c (by simp [hc]), h m hm⟩
    exact hmember c hc

/-- Bytes of an object that were cut short are those of a text that is malformed. -/
theorem exists_of_prefix_block {ms : List (String × String)} {es : List (String × Value)}
    (h : List.Forall₂ WritesMember ms es)
    (hvalues : ∀ m ∈ ms, Tears m.2.toList ∧ IsAscii m.2.toList) (hne : ms ≠ [])
    {bytes : List UInt8} (hbegins : bytes <+: Text.utf8 (block ms))
    (hcut : bytes ≠ Text.utf8 (block ms)) :
    ∃ s, Text.utf8 s = bytes ∧ read s = .error .malformed := by
  have hascii : IsAscii (block ms).toList := by
    rw [toList_block hne]
    exact Layout.block.isAscii_object fun m hm => (hvalues m hm).2
  obtain ⟨s, hs, rfl⟩ := Text.exists_of_prefix_utf8 hascii hbegins
  refine ⟨s, rfl, read_block_of_cutShort h (fun m hm => (hvalues m hm).1) hne ?_⟩
  refine cutShort_iff.mpr ⟨hs, fun heq => hcut ?_⟩
  rw [String.toList_inj.mp heq]

end LinterSuite.Json
