import LinterSuite.Grammar.Matching
import LinterSuite.Keyed
import LinterSuite.Proofs.Fallible
import LinterSuite.Proofs.Text.Separators
import Mathlib.Data.List.Induction
import Mathlib.Data.List.Lex
import Mathlib.Data.Nat.Digits.Defs

/-!
# Cutting lines along a grammar

What it means that a grammar describes a line, said without a search: the line is a concatenation of
one piece per token. The search for captures tries the lengths of each field from the longest down
and takes the first that works. Here it is shown to find a cut whenever there is one, and of all
cuts the one whose lengths are lexicographically greatest.

## Main definitions

* `Placeholder.Describes`: the texts that a field may capture
* `Token.Cuts`: a line cut into one piece per token
* `Token.CutsLongest`: the cut whose fields are as long as possible, from left to right
* `Captures.Says`: the diagnostic that captures state
* `Text.ShortNumerals`: no run of digits is too long to be read as a number

## Main results

* `Token.captures?_sound`, `Token.captures?_complete`: the search is exact and takes the longest cut
* `Grammar.nodup_of_compileAll`: a grammar names no field twice
* `Grammar.parseLine_exact`: the first grammar that describes a line says what its longest cut says
-/

namespace LinterSuite

/-! ### What a field may capture -/

/-- The texts that a field may capture. Paths and programs hold no colon and no control character,
numbers are digits of any script, and messages are whatever stands on one line. -/
def Placeholder.Describes : Placeholder → List Char → Prop
  | .file, text | .program, text => text ≠ [] ∧ ∀ c ∈ text, c ≠ ':' ∧ 0x1F < c.toNat
  | .line, text | .column, text => text ≠ [] ∧ ∀ c ∈ text, (Text.decimalValue? c).isSome
  | .message, text => '\n' ∉ text

theorem Placeholder.describes_iff {p : Placeholder} {text : List Char} :
    p.Describes text ↔ (p.mayBeEmpty ∨ text ≠ []) ∧ ∀ c ∈ text, p.admits c := by
  cases p with
  | message =>
    simp only [Describes, mayBeEmpty, admits, true_or, true_and, bne_iff_ne]
    exact ⟨fun h c hc heq => h (heq ▸ hc), fun h hc => h '\n' hc rfl⟩
  | file | program => simp [Describes, mayBeEmpty, admits]
  | line | column => simp [Describes, mayBeEmpty, admits, Text.isDecimalDigit]

theorem Placeholder.mem_lengths {p : Placeholder} {cs : List Char} {n : Nat} :
    n ∈ p.lengths cs ↔ n ≤ cs.length ∧ p.Describes (cs.take n) := by
  have htake : n ≤ cs.length → (cs.take n ≠ [] ↔ n ≠ 0) := by
    intro hn
    rw [← List.length_pos_iff, List.length_take, Nat.min_eq_left hn, Nat.pos_iff_ne_zero]
  simp only [lengths, List.mem_filter, List.mem_reverse, List.mem_range, Nat.lt_succ_iff,
    le_length_takeWhile_iff, Bool.or_eq_true, bne_iff_ne, describes_iff]
  constructor
  · rintro ⟨⟨hn, hall⟩, hempty⟩
    exact ⟨hn, hempty.imp_right (htake hn).mpr, hall⟩
  · rintro ⟨hn, hempty, hall⟩
    exact ⟨⟨hn, hall⟩, hempty.imp_right (htake hn).mp⟩

/-- The lengths of a field are tried from the longest down. -/
theorem Placeholder.pairwise_lengths (p : Placeholder) (cs : List Char) :
    (p.lengths cs).Pairwise (· > ·) :=
  (List.pairwise_reverse.mpr List.pairwise_lt_range).filter _

/-! ### Cuts -/

/-- The field that a token stands for. -/
def Token.field? : Token → Option Placeholder
  | .literal _ => none
  | .placeholder p => some p

@[simp] theorem Token.field?_literal (text : List Char) : field? (.literal text) = none := rfl

@[simp] theorem Token.field?_placeholder (p : Placeholder) : field? (.placeholder p) = some p := rfl

/-- The lengths of the fields, in order. -/
def Captures.lengths (found : Captures) : List Nat := found.map fun field => field.2.length

/-- A line cut into one piece for each token: each literal verbatim, and each field a text that it
describes. -/
inductive Token.Cuts : List Token → List Char → Captures → Prop
  | nil : Cuts [] [] []
  | literal {tokens cs found} (text : List Char) (rest : Cuts tokens cs found) :
      Cuts (.literal text :: tokens) (text ++ cs) found
  | placeholder {tokens cs found p text} (piece : p.Describes text) (rest : Cuts tokens cs found) :
      Cuts (.placeholder p :: tokens) (text ++ cs) ((p, text) :: found)

/-- The cut whose first field is the longest that any cut has, whose second field is the longest
among those, and so on. -/
structure Token.CutsLongest (tokens : List Token) (cs : List Char) (found : Captures) : Prop where
  cuts : Token.Cuts tokens cs found
  longest : ∀ other, Token.Cuts tokens cs other → other.lengths ≤ found.lengths

/-- Some cut of the line follows the grammar. -/
def Grammar.Admits (g : Grammar) (line : List Char) : Prop :=
  ∃ found, Token.Cuts g.tokens line found

namespace Token

theorem Cuts.mem_infix {tokens : List Token} {cs : List Char} {found : Captures}
    {p : Placeholder} {text : List Char} (h : Cuts tokens cs found) (hmem : (p, text) ∈ found) :
    p.Describes text ∧ text <:+: cs := by
  induction h with
  | nil => simp at hmem
  | literal front _ ih =>
    obtain ⟨hp, hinfix⟩ := ih hmem
    exact ⟨hp, hinfix.trans (List.suffix_append front _).isInfix⟩
  | placeholder piece _ ih =>
    rcases List.mem_cons.mp hmem with heq | hmem
    · obtain ⟨rfl, rfl⟩ := Prod.mk.inj heq
      exact ⟨piece, (List.prefix_append _ _).isInfix⟩
    · obtain ⟨hp, hinfix⟩ := ih hmem
      exact ⟨hp, hinfix.trans (List.suffix_append _ _).isInfix⟩

/-- A cut has the fields of the tokens, in order. -/
theorem Cuts.map_fst {tokens : List Token} {cs : List Char} {found : Captures}
    (h : Cuts tokens cs found) : found.map (·.1) = tokens.filterMap field? := by
  induction h with
  | nil => rfl
  | literal text _ ih => rwa [List.filterMap_cons_none (field?_literal text)]
  | placeholder _ _ ih => rw [List.filterMap_cons_some (field?_placeholder _), List.map_cons, ih]

theorem captures?_sound {tokens : List Token} {cs : List Char} {found : Captures}
    (h : captures? tokens cs = some found) : Cuts tokens cs found := by
  induction tokens generalizing cs found with
  | nil =>
    cases cs with
    | nil =>
      obtain rfl : [] = found := by simpa [captures?] using h
      exact .nil
    | cons c cs => simp [captures?] at h
  | cons token tokens ih =>
    cases token with
    | literal text =>
      simp only [captures?] at h
      split at h
      · next hprefix =>
        obtain ⟨rest, rfl⟩ := List.isPrefixOf_iff_prefix.mp hprefix
        rw [List.drop_left] at h
        exact .literal text (ih h)
      · simp at h
    | placeholder p =>
      simp only [captures?] at h
      obtain ⟨n, hn, hrest⟩ := List.exists_of_findSome?_eq_some h
      obtain ⟨found', hfound', rfl⟩ := Option.map_eq_some_iff.mp hrest
      have hcut := Cuts.placeholder (Placeholder.mem_lengths.mp hn).2 (ih hfound')
      rwa [List.take_append_drop] at hcut

/-- A search through a falling list finds something that is no smaller than any number that would
have done. -/
theorem findSome?_of_pairwise_gt {α : Type} {ns : List Nat} {f : Nat → Option α} {n : Nat} {a : α}
    (hfall : ns.Pairwise (· > ·)) (hn : n ∈ ns) (ha : f n = some a) :
    ∃ m ∈ ns, ∃ b, ns.findSome? f = some b ∧ f m = some b ∧ n ≤ m := by
  cases hfind : ns.findSome? f with
  | none =>
    rw [List.findSome?_eq_none_iff] at hfind
    exact absurd (hfind n hn) (by simp [ha])
  | some b =>
    obtain ⟨before, m, after, rfl, hm, hnone⟩ := List.findSome?_eq_some_iff.mp hfind
    refine ⟨m, by simp, b, rfl, hm, ?_⟩
    rcases List.mem_append.mp hn with hbefore | hafter
    · exact absurd (hnone n hbefore) (by simp [ha])
    · rcases List.mem_cons.mp hafter with rfl | hafter
      · exact le_refl n
      · -- Behind the first hit there are only smaller numbers.
        have hgt := (List.pairwise_append.mp hfall).2.1
        exact (List.rel_of_pairwise_cons hgt hafter).le

/-- The search finds a cut if there is one, and none is longer. -/
theorem captures?_complete {tokens : List Token} {cs : List Char} {other : Captures}
    (h : Cuts tokens cs other) :
    ∃ found, captures? tokens cs = some found ∧ other.lengths ≤ found.lengths := by
  induction h with
  | nil => exact ⟨[], rfl, le_refl _⟩
  | @literal _ cs _ text _ ih =>
    obtain ⟨found, hfound, hle⟩ := ih
    have hprefix : text.isPrefixOf (text ++ cs) :=
      List.isPrefixOf_iff_prefix.mpr (List.prefix_append text cs)
    exact ⟨found, by rw [captures?, if_pos hprefix, List.drop_left, hfound], hle⟩
  | @placeholder tokens cs other p text piece _ ih =>
    obtain ⟨found, hfound, hle⟩ := ih
    have hlength : text.length ∈ p.lengths (text ++ cs) :=
      Placeholder.mem_lengths.mpr ⟨by simp, by simpa using piece⟩
    obtain ⟨m, hmem, best, hbest, hm, hle_m⟩ :=
      findSome?_of_pairwise_gt (p.pairwise_lengths (text ++ cs)) hlength
        (f := fun n => (captures? tokens ((text ++ cs).drop n)).map fun found =>
          (p, (text ++ cs).take n) :: found)
        (by rw [List.drop_left, hfound]; rfl)
    refine ⟨best, by rw [captures?, hbest], ?_⟩
    obtain ⟨found', hfound', rfl⟩ := Option.map_eq_some_iff.mp hm
    have hlen : ((text ++ cs).take m).length = m :=
      List.length_take_of_le (Placeholder.mem_lengths.mp hmem).1
    simp only [Captures.lengths, List.map_cons, hlen]
    -- A field longer than the given one decides; one as long leaves the same rest.
    rcases Nat.lt_or_eq_of_le hle_m with hlt | rfl
    · exact le_of_lt (List.Lex.rel hlt)
    · rw [List.drop_left, hfound] at hfound'
      obtain rfl := Option.some.inj hfound'
      exact List.cons_le_cons _ hle

theorem captures?_eq_none_iff {tokens : List Token} {cs : List Char} :
    captures? tokens cs = none ↔ ∀ found, ¬ Cuts tokens cs found := by
  constructor
  · intro hnone found hcuts
    obtain ⟨found', hfound', _⟩ := captures?_complete hcuts
    simp [hnone] at hfound'
  · intro hno
    by_contra hne
    obtain ⟨found, hfound⟩ := Option.ne_none_iff_exists'.mp hne
    exact hno found (captures?_sound hfound)

theorem cutsLongest_of_captures? {tokens : List Token} {cs : List Char} {found : Captures}
    (h : captures? tokens cs = some found) : CutsLongest tokens cs found := by
  refine ⟨captures?_sound h, fun other hother => ?_⟩
  obtain ⟨found', hfound', hle⟩ := captures?_complete hother
  obtain rfl := Option.some.inj (h.symm.trans hfound')
  exact hle

end Token

/-! ### A grammar names no field twice -/

namespace Grammar

@[simp] theorem filterMap_withLiteral (held : List Char) (tokens : List Token) :
    (withLiteral held tokens).filterMap Token.field? = tokens.filterMap Token.field? := by
  unfold withLiteral
  split
  · rfl
  · exact List.filterMap_cons_none (Token.field?_literal _)

/-- The fields of the rest of a grammar are named once, and were not named before. -/
theorem nodup_of_tokensFrom {offset : Nat} {held cs : List Char} {seen : List Placeholder}
    {tokens : List Token} (h : tokensFrom offset held seen cs = .ok tokens) :
    (tokens.filterMap Token.field?).Nodup ∧ ∀ p ∈ tokens.filterMap Token.field?, p ∉ seen := by
  fun_induction tokensFrom offset held seen cs generalizing tokens with
  | case1 offset held seen =>
    obtain rfl := Except.ok.inj h
    simp
  | case2 | case4 | case5 => simp at h
  | case3 offset held seen rest ih => exact ih h
  | case6 offset held seen c rest hc p hp hseen ih =>
    obtain ⟨rest', hrest, rfl⟩ : ∃ rest', tokensFrom (offset + 2) [] (p :: seen) rest = .ok rest' ∧
        withLiteral held (.placeholder p :: rest') = tokens := by
      cases hrest : tokensFrom (offset + 2) [] (p :: seen) rest <;> simp_all [Except.map]
    -- The field counts as seen while the rest is read, so the rest does not name it.
    obtain ⟨hnodup, hnot⟩ := ih hrest
    rw [filterMap_withLiteral, List.filterMap_cons_some (Token.field?_placeholder p)]
    refine ⟨List.nodup_cons.mpr ⟨fun hp' => hnot p hp' List.mem_cons_self, hnodup⟩, ?_⟩
    rintro q hq
    rcases List.mem_cons.mp hq with rfl | hq
    · assumption
    · exact fun hq' => hnot q hq (List.mem_cons_of_mem _ hq')
  | case7 offset held seen c rest h1 h2 h3 ih => exact ih h

theorem nodup_of_tokenizeChars {cs : List Char} {tokens : List Token}
    (h : tokenizeChars cs = .ok tokens) : (tokens.filterMap Token.field?).Nodup := by
  by_cases hempty : (stripAnchors cs).isEmpty
  · simp [tokenizeChars, hempty] at h
  · rw [tokenizeChars, if_neg hempty] at h
    exact (nodup_of_tokensFrom h).1

theorem nodup_of_compileAll {sources : List String} {grammars : List Grammar}
    (h : compileAll sources = .ok grammars) {g : Grammar} (hg : g ∈ grammars) :
    (g.tokens.filterMap Token.field?).Nodup := by
  obtain ⟨source, -, hcompile⟩ := Except.exists_of_mem_mapM h hg
  obtain ⟨tokens, htokens, rfl⟩ := Except.map_eq_ok_iff.mp hcompile
  exact nodup_of_tokenizeChars (Except.mapError_eq_ok_iff.mp htokens)

end Grammar

/-! ### What captures say -/

/-- A value that a field gives: what its text reads as, or a default without the field. -/
structure Captures.Gives {α : Type} (found : Captures) (p : Placeholder) (read : List Char → α)
    (default value : α) : Prop where
  present : ∀ text, (p, text) ∈ found → value = read text
  absent : (∀ text, (p, text) ∉ found) → value = default

/-- The number that digits of any script write, most significant first. -/
def Text.positionalValue (digits : List Char) : Nat :=
  Nat.ofDigits 10 (digits.reverse.map fun c => (Text.decimalValue? c).getD 0)

/-- What captures say on behalf of a program: the path and the message as they stand, line and
column as numbers, and the program that the line names in place of the given one. -/
structure Captures.Says (found : Captures) (program : String) (m : Message) : Prop where
  program : found.Gives .program String.ofList program m.program
  file : found.Gives .file (fun text => some (String.ofList text)) none m.file
  line : found.Gives .line (fun text => (Text.positionalValue text : Int)) 0 m.line
  column : found.Gives .column (fun text => (Text.positionalValue text : Int)) 0 m.column
  message : found.Gives .message String.ofList "" m.text

/-- No run of digits in a line is too long to be read as a number. -/
def Text.ShortNumerals (line : List Char) : Prop :=
  ∀ run, run <:+: line → (∀ c ∈ run, (Text.decimalValue? c).isSome) →
    run.length ≤ Text.numeralLimit

theorem Text.decimalNumber_eq_positionalValue (digits : List Char) :
    decimalNumber digits = positionalValue digits := by
  induction digits using List.reverseRecOn with
  | nil => rfl
  | append_singleton digits c ih =>
    rw [decimalNumber_concat, ih, positionalValue, positionalValue, List.reverse_concat,
      List.map_cons, Nat.ofDigits_cons, Nat.add_comm]

namespace Captures

theorem lookup_eq_none_iff {found : Captures} {p : Placeholder} :
    found.lookup p = none ↔ ∀ text, (p, text) ∉ found := by
  rw [List.lookup_eq_none_iff]
  constructor
  · intro h text hmem
    simpa using h _ hmem
  · intro h field hfield
    exact bne_iff_ne.mpr fun heq => h field.2 (heq ▸ hfield)

/-- A value read from what is looked up is the value that the field gives. -/
theorem gives_of_lookup {α : Type} {found : Captures} (hnodup : (found.map (·.1)).Nodup)
    {p : Placeholder} {read : List Char → α} {default value : α}
    (hvalue : value = (found.lookup p).elim default read) : found.Gives p read default value where
  present text hmem := by rw [hvalue, (Keyed.lookup_eq_some_iff hnodup).mpr hmem]; rfl
  absent hno := by rw [hvalue, lookup_eq_none_iff.mpr hno]; rfl

/-- Where no run of digits is too long, every number can be read. -/
theorem number_eq {tokens : List Token} {cs : List Char} {found : Captures}
    (hcuts : Token.Cuts tokens cs found) (hshort : Text.ShortNumerals cs) {p : Placeholder}
    (hp : p = .line ∨ p = .column) (hnodup : (found.map (·.1)).Nodup) :
    found.number p = .ok ((found.lookup p).elim 0 Text.positionalValue) := by
  cases hlookup : found.lookup p with
  | none => simp [number, hlookup]
  | some digits =>
    obtain ⟨hdescribes, hinfix⟩ := hcuts.mem_infix ((Keyed.lookup_eq_some_iff hnodup).mp hlookup)
    have hdigits : ∀ c ∈ digits, (Text.decimalValue? c).isSome := by
      rcases hp with rfl | rfl <;> exact hdescribes.2
    -- The digits stand next to each other in the line, so there are not too many.
    have hle := hshort digits hinfix hdigits
    simp [number, hlookup, Nat.not_lt.mpr hle, Text.decimalNumber_eq_positionalValue]

/-- The diagnostic of a cut is there, and it says what the captures say. -/
theorem exists_message {tokens : List Token} {cs : List Char} {found : Captures}
    (hcuts : Token.Cuts tokens cs found) (hshort : Text.ShortNumerals cs)
    (hnodup : (tokens.filterMap Token.field?).Nodup) (program : String) :
    ∃ m, found.message program = .ok m ∧ found.Says program m := by
  rw [← hcuts.map_fst] at hnodup
  have hline := number_eq hcuts hshort (.inl rfl) hnodup
  have hcolumn := number_eq hcuts hshort (.inr rfl) hnodup
  refine ⟨_, by rw [message, hline, hcolumn]; rfl, ?_⟩
  constructor <;> apply gives_of_lookup hnodup
  case program | message | file =>
    simp only [text?]
    cases found.lookup _ <;> rfl
  case line | column =>
    dsimp only
    cases found.lookup _ <;> rfl

end Captures

namespace Grammar

/-- One grammar on one line: no diagnostic without a cut, and otherwise what the longest cut
says. -/
theorem message?_exact {g : Grammar} (hnodup : (g.tokens.filterMap Token.field?).Nodup)
    (program : String) {line : String} (hshort : Text.ShortNumerals line.toList) :
    (¬ g.Admits line.toList ∧ g.message? program line = .ok none) ∨
      ∃ found m, Token.CutsLongest g.tokens line.toList found ∧ found.Says program m ∧
        g.message? program line = .ok (some m) := by
  cases hfound : Token.captures? g.tokens line.toList with
  | none =>
    left
    exact ⟨fun ⟨found, hcuts⟩ => Token.captures?_eq_none_iff.mp hfound found hcuts,
      by rw [message?, hfound]⟩
  | some found =>
    right
    have hcuts := Token.cutsLongest_of_captures? hfound
    obtain ⟨m, hm, hsays⟩ := Captures.exists_message hcuts.cuts hshort hnodup program
    exact ⟨found, m, hcuts, hsays, by rw [message?, hfound]; simp [hm, Except.map]⟩

theorem parseLine_of_not_admits {grammars : List Grammar}
    (hnodup : ∀ g ∈ grammars, (g.tokens.filterMap Token.field?).Nodup) {program line : String}
    (hshort : Text.ShortNumerals line.toList) (hno : ∀ g ∈ grammars, ¬ g.Admits line.toList)
    (after : List Grammar) :
    parseLine (grammars ++ after) program line = parseLine after program line := by
  induction grammars with
  | nil => rfl
  | cons g grammars ih =>
    have hrest := ih (fun g' hg' => hnodup g' (List.mem_cons_of_mem _ hg'))
      (fun g' hg' => hno g' (List.mem_cons_of_mem _ hg'))
    rcases message?_exact (hnodup g List.mem_cons_self) program hshort with
      ⟨-, hmessage⟩ | ⟨found, m, hcuts, -, -⟩
    · rw [List.cons_append, parseLine, hmessage]
      exact hrest
    · exact absurd ⟨found, hcuts.cuts⟩ (hno g List.mem_cons_self)

theorem parseLine_of_admits {g : Grammar} (hnodup : (g.tokens.filterMap Token.field?).Nodup)
    (program : String) {line : String} (hshort : Text.ShortNumerals line.toList)
    (hadmits : g.Admits line.toList) (after : List Grammar) :
    ∃ found m, Token.CutsLongest g.tokens line.toList found ∧ found.Says program m ∧
      parseLine (g :: after) program line = .ok (some m) := by
  rcases message?_exact hnodup program hshort with ⟨hno, -⟩ | ⟨found, m, hcuts, hsays, hmessage⟩
  · exact absurd hadmits hno
  · exact ⟨found, m, hcuts, hsays, by rw [parseLine, hmessage]; rfl⟩

theorem not_admits_of_parseLine_none {grammars : List Grammar}
    (hnodup : ∀ g ∈ grammars, (g.tokens.filterMap Token.field?).Nodup) {program line : String}
    (hshort : Text.ShortNumerals line.toList) (hnone : parseLine grammars program line = .ok none) :
    ∀ g ∈ grammars, ¬ g.Admits line.toList := by
  induction grammars with
  | nil => simp
  | cons g grammars ih =>
    rcases message?_exact (hnodup g List.mem_cons_self) program hshort with
      ⟨hno, hmessage⟩ | ⟨found, m, -, -, hmessage⟩
    · rw [parseLine, hmessage] at hnone
      have hrest := ih (fun g' hg' => hnodup g' (List.mem_cons_of_mem _ hg')) hnone
      exact List.forall_mem_cons.mpr ⟨hno, hrest⟩
    · rw [parseLine, hmessage] at hnone
      simp [bind, Except.bind, pure, Except.pure] at hnone

/-- Some grammars on one line. There is no diagnostic exactly if none of them admits the line, and
otherwise the first that does gives what its longest cut says. -/
theorem parseLine_exact {sources : List String} {grammars : List Grammar}
    (hcompile : compileAll sources = .ok grammars) (program : String) {line : String}
    (hshort : Text.ShortNumerals line.toList) :
    (parseLine grammars program line = .ok none ↔ ∀ g ∈ grammars, ¬ g.Admits line.toList) ∧
    ∀ before g after, grammars = before ++ g :: after →
      (∀ b ∈ before, ¬ b.Admits line.toList) → g.Admits line.toList →
      ∃ found m, Token.CutsLongest g.tokens line.toList found ∧ found.Says program m ∧
        parseLine grammars program line = .ok (some m) := by
  have hnodup : ∀ g ∈ grammars, (g.tokens.filterMap Token.field?).Nodup :=
    fun g hg => nodup_of_compileAll hcompile hg
  refine ⟨⟨not_admits_of_parseLine_none hnodup hshort, fun hno => ?_⟩, ?_⟩
  · simpa [parseLine] using parseLine_of_not_admits hnodup hshort hno []
  · rintro before g after rfl hbefore hadmits
    rw [parseLine_of_not_admits (fun b hb => hnodup b (List.mem_append_left _ hb)) hshort hbefore]
    exact parseLine_of_admits (hnodup g (by simp)) program hshort hadmits after

/-- The second of two grammars on a line that three of its cuts fit: the path takes all the digits
that the line number can spare. -/
theorem parseLine_exact_overlapping_fields :
    ∃ first second, compileAll ["%f:%l:%c: %m", "%f%l: %m"] = .ok [first, second] ∧
      Text.ShortNumerals "a123: x: y".toList ∧ ¬ first.Admits "a123: x: y".toList ∧
      ∃ found m, Token.CutsLongest second.tokens "a123: x: y".toList found ∧
        found.lengths = [3, 1, 4] ∧ found.Says "tool" m ∧
        parseLine [first, second] "tool" "a123: x: y" = .ok (some m) := by
  let first : Grammar := ⟨"%f:%l:%c: %m", [.placeholder .file, .literal [':'], .placeholder .line,
    .literal [':'], .placeholder .column, .literal [':', ' '], .placeholder .message]⟩
  let second : Grammar := ⟨"%f%l: %m", [.placeholder .file, .placeholder .line,
    .literal [':', ' '], .placeholder .message]⟩
  have hcompile : compileAll ["%f:%l:%c: %m", "%f%l: %m"] = .ok [first, second] := by rfl
  have hshort : Text.ShortNumerals "a123: x: y".toList := fun run hrun _ =>
    hrun.length_le.trans (by decide)
  have hfirst : ¬ first.Admits "a123: x: y".toList := fun ⟨found, hcuts⟩ =>
    Token.captures?_eq_none_iff.mp (by rfl) found hcuts
  have hbest : Token.CutsLongest second.tokens "a123: x: y".toList
      [(.file, "a12".toList), (.line, ['3']), (.message, "x: y".toList)] :=
    Token.cutsLongest_of_captures? (by rfl)
  have hsecond : second.Admits "a123: x: y".toList := ⟨_, hbest.cuts⟩
  obtain ⟨found, m, hcuts, hsays, hparse⟩ :=
    (parseLine_exact hcompile "tool" hshort).2 [first] second [] rfl (by simpa using hfirst) hsecond
  refine ⟨first, second, hcompile, hshort, hfirst, found, m, hcuts, ?_, hsays, hparse⟩
  -- Neither of two longest cuts is longer than the other.
  exact le_antisymm (hbest.longest _ hcuts.cuts) (hcuts.longest _ hbest.cuts)

end Grammar

end LinterSuite
