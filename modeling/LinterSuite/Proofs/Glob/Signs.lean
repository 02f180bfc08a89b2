import LinterSuite.Proofs.Glob.Brackets

/-!
# What signs mean

The signs of a pattern are read from the first to the last. Signs mean a language if they are read
as parts that take its texts, whatever stands around them. Where a class cannot be read the whole
pattern cannot be, so that nothing is said about it.

## Main definitions

* `Sign.Mean`: some signs mean a language
* `Sign.operators`: the characters that do not stand for themselves if they are not quoted

## Main results

* `Sign.Mean.append`: signs one after the other
* `Sign.Mean.takes`: the expression of signs that mean a language
* `Glob.mean_classSigns`: a class means one of its characters
* `Glob.read_classSigns_of_not_closes`: what is read of a class that is closed before it ends
-/

namespace LinterSuite

open Glob

/-! ### Signs in a row -/

/-- The group with some more parts. -/
def Level.extend (l : Level) (parts : List Part) : Level :=
  { l with parts := parts.reverse ++ l.parts }

@[simp] theorem Level.extend_extend (l : Level) (parts more : List Part) :
    (l.extend parts).extend more = l.extend (parts ++ more) := by
  simp [Level.extend]

theorem Level.content_extend_fresh (parts : List Part) :
    ((Level.fresh .plain .standard).extend parts).content =
      .sequence (parts.map (·.expression)) := by
  simp [extend, content, last, fresh]

theorem Progress.read_part {l : Level} (hmode : l.mode = .standard) (p : Part)
    (written : List Mark) (rest : List Sign) :
    read ⟨[], l, .none⟩ (.part p written :: rest) = read ⟨[], l.extend [p], .none⟩ rest := by
  rw [read, if_pos hmode]
  rfl

namespace Sign

variable {signs more : List Sign} {L M : Language Char} {e : Expression}

/-- Signs that mean a language: where they can be read outside of groups, they are read as parts
that take its texts. -/
def Mean (signs : List Sign) (L : Language Char) : Prop :=
  ∀ (l : Level) (rest : List Sign) (e : Expression), l.mode = .standard →
    Progress.read ⟨[], l, .none⟩ (signs ++ rest) = .ok e →
      ∃ parts : List Part, (Expression.sequence (parts.map (·.expression))).Takes L ∧
        Progress.read ⟨[], l.extend parts, .none⟩ rest = .ok e

theorem mean_nil : Mean [] 1 := by
  intro l rest e _ hread
  exact ⟨[], Expression.takes_sequence_nil, hread⟩

theorem Mean.append (hsigns : Mean signs L) (hmore : Mean more M) :
    Mean (signs ++ more) (L * M) := by
  intro l rest e hmode hread
  rw [List.append_assoc] at hread
  obtain ⟨parts, hparts, hread⟩ := hsigns l _ e hmode hread
  -- The signs behind them are read with these parts in front.
  obtain ⟨parts', hparts', hread⟩ := hmore (l.extend parts) _ e hmode hread
  refine ⟨parts ++ parts', ?_, by rwa [Level.extend_extend] at hread⟩
  rw [List.map_append]
  exact hparts.sequence_append hparts'

theorem Mean.cons {sign : Sign} (hsign : Mean [sign] L) (hmore : Mean more M) :
    Mean (sign :: more) (L * M) := hsign.append hmore

theorem Mean.congr (h : Mean signs L) (hLM : ∀ cs, cs ∈ L ↔ cs ∈ M) : Mean signs M := by
  obtain rfl : L = M := Set.ext hLM
  exact h

/-- A finished part means what its expression takes. -/
theorem mean_part {p : Part} (hp : p.expression.Takes L) (written : List Mark) :
    Mean [.part p written] L := by
  intro l rest e hmode hread
  rw [List.singleton_append, Progress.read_part hmode] at hread
  refine ⟨[p], ?_, hread⟩
  have htakes := hp.sequence_cons Expression.takes_sequence_nil
  rwa [mul_one] at htakes

/-- What is read behind other parts. -/
theorem Mean.exists_parts (h : Mean signs L) {l : Level} (hmode : l.mode = .standard)
    (hread : Progress.read ⟨[], l, .none⟩ signs = .ok e) :
    ∃ parts : List Part, (Expression.sequence (parts.map (·.expression))).Takes L ∧
      e = (l.extend parts).content := by
  obtain ⟨parts, hparts, hrest⟩ := h l [] e hmode (by rwa [List.append_nil])
  refine ⟨parts, hparts, ?_⟩
  rw [Progress.read] at hrest
  exact (Except.ok.inj hrest).symm

/-- The expression of signs that mean a language takes its texts. -/
theorem Mean.takes (h : Mean signs L) (hread : Expression.ofSigns signs = .ok e) : e.Takes L := by
  obtain ⟨parts, hparts, rfl⟩ := h.exists_parts rfl hread
  rwa [Level.content_extend_fresh]

/-- Finished parts, and no characters. -/
def Finished (signs : List Sign) : Prop :=
  ∃ parts : List (Part × List Mark), signs = parts.map fun p => .part p.1 p.2

theorem finished_nil : Finished [] := ⟨[], rfl⟩

theorem Finished.cons (p : Part) (written : List Mark) (h : Finished signs) :
    Finished (.part p written :: signs) := by
  obtain ⟨parts, rfl⟩ := h
  exact ⟨(p, written) :: parts, rfl⟩

theorem Finished.append (hsigns : Finished signs) (hmore : Finished more) :
    Finished (signs ++ more) := by
  obtain ⟨parts, rfl⟩ := hsigns
  obtain ⟨parts', rfl⟩ := hmore
  exact ⟨parts ++ parts', List.map_append.symm⟩

/-- Finished parts alone can be read. -/
theorem Finished.exists_ofSigns (h : Finished signs) : ∃ e, Expression.ofSigns signs = .ok e := by
  obtain ⟨parts, rfl⟩ := h
  exact ⟨_, Progress.read_parts _ rfl parts⟩

end Sign

/-! ### Characters and brackets -/

/-- The characters that mean something else than themselves if they are not quoted. -/
def Sign.operators : List Char := ['|', '(', ')', '[', '.', '^', '$', '*', '+', '?', '\x7b']

namespace Progress

variable {p p' : Progress} {l : Level} {m : Mark} {signs rest : List Sign}

theorem read_of_take (hm : ¬ m.quoted) (h : p.take m.char signs = .ok (p', rest)) :
    read p (.mark m :: signs) = read p' rest := by
  rw [read, if_neg hm]
  split
  · next h' => cases h.symm.trans h'
  · next h' =>
    obtain ⟨rfl, rfl⟩ := Prod.mk.inj (Except.ok.inj (h.symm.trans h'))
    rfl

theorem read_of_take_error {trouble : GlobError} (hm : ¬ m.quoted)
    (h : p.take m.char signs = .error trouble) :
    read p (.mark m :: signs) = .error trouble := by
  rw [read, if_neg hm]
  split
  · next h' => exact congrArg _ (Except.error.inj (h'.symm.trans h))
  · next h' => cases h.symm.trans h'

theorem take_of_not_mem_operators {c : Char} (hmode : l.mode = .standard)
    (hc : c ∉ Sign.operators) (rest : List Sign) :
    take ⟨[], l, .none⟩ c rest = .ok (⟨[], l.extend [.one (.char c)], .none⟩, rest) := by
  simp only [Sign.operators, List.mem_cons, List.not_mem_nil, or_false, not_or] at hc
  have htimes : Times.ofSign c rest = .ok none := by
    simp [Times.ofSign, hc]
  have hliteral : l.mode.literal c = .char c := by rw [hmode]; rfl
  have hspaced : l.mode.spaced = false := by rw [hmode]; rfl
  simp only [take, hspaced, Bool.false_and, Bool.false_eq_true, if_false]
  unfold takeSpecial
  simp only [hc, imp_self, htimes, hliteral]
  rfl

theorem take_class (hmode : l.mode = .standard) (rest : List Sign) :
    take ⟨[], l, .none⟩ '[' rest =
      GlobError.require ((CharClass.ofMarks? (rest.flatMap Sign.marks)).map fun r =>
        (⟨[], l.extend [.one (.oneOf r.1)], .none⟩, Sign.ofMarks r.2)) := by
  have hlisted : ∀ k, l.mode.listed k = .oneOf k := by rw [hmode]; exact fun _ => rfl
  have hspaced : l.mode.spaced = false := by rw [hmode]; rfl
  simp only [take, hspaced, Bool.false_and, Bool.false_eq_true, if_false]
  simp only [takeSpecial, takeClass?, hlisted]
  rfl

end Progress

namespace Sign

theorem flatMap_marks_ofMarks (ms : List Mark) : (ofMarks ms).flatMap marks = ms := by
  induction ms with
  | nil => rfl
  | cons m ms ih => exact congrArg (m :: ·) ih

/-- A character that is quoted or no operator means itself. -/
theorem mean_mark {m : Mark} (hm : m.quoted ∨ m.char ∉ operators) :
    Mean [.mark m] (single (· = m.char)) := by
  intro l rest e hmode hread
  refine ⟨[.one (.char m.char)], ?_, ?_⟩
  · have htakes := (Expression.takes_char m.char).sequence_cons Expression.takes_sequence_nil
    rwa [mul_one] at htakes
  · rw [List.singleton_append] at hread
    by_cases hquoted : m.quoted
    · rw [Progress.read, if_pos hquoted, hmode] at hread
      exact hread
    · have htake := Progress.take_of_not_mem_operators hmode (hm.resolve_left hquoted) rest
      rw [Progress.read_of_take hquoted htake] at hread
      exact hread

/-- Characters that are quoted or no operators mean themselves, one after the other. -/
theorem mean_ofMarks {ms : List Mark} (hms : ∀ m ∈ ms, m.quoted ∨ m.char ∉ operators) :
    Mean (ofMarks ms) {ms.map (·.char)} := by
  induction ms with
  | nil => exact mean_nil
  | cons m ms ih =>
    have hm := mean_mark (hms m List.mem_cons_self)
    refine (hm.cons (ih fun m h => hms m (List.mem_cons_of_mem _ h))).congr fun cs => ?_
    simp only [mem_single_mul]
    constructor
    · rintro ⟨_, _, rfl, rfl, rfl⟩
      rfl
    · rintro rfl
      exact ⟨_, _, rfl, rfl, rfl⟩

end Sign

/-! ### Classes -/

namespace Glob

variable {body : List Char} {k : CharClass}

/-- Reading stops with a class that cannot be read, whatever stands behind it. -/
theorem read_classSigns_of_unreadable
    (hnone : ∀ more, CharClass.ofMarks? (classMarks body ++ more) = none) {l : Level}
    (hmode : l.mode = .standard) (rest : List Sign) :
    Progress.read ⟨[], l, .none⟩ (classSigns body ++ rest) = .error .malformed := by
  have hclass := hnone []
  rw [List.append_nil] at hclass
  have hsigns : classSigns body = Sign.ofMarks (.plain '[' :: classMarks body) := by
    simp only [classSigns, hclass]
  have htake : Progress.take ⟨[], l, .none⟩ '[' (Sign.ofMarks (classMarks body) ++ rest) =
      .error .malformed := by
    rw [Progress.take_class hmode, List.flatMap_append, Sign.flatMap_marks_ofMarks, hnone]
    rfl
  rw [hsigns]
  exact Progress.read_of_take_error Bool.false_ne_true htake

/-- A class means one of its characters. -/
theorem mean_classSigns (hbody : IsClassText body) (hcloses : Closes body) :
    Sign.Mean (classSigns body) (single (Admits body)) := by
  rcases unreadable_or_readable hbody hcloses with hnone | ⟨k, hclass⟩
  · intro l rest e hmode hread
    exact nomatch hread.symm.trans (read_classSigns_of_unreadable hnone hmode rest)
  · have hsigns : classSigns body =
        [.part (.one (.oneOf k)) (.plain '[' :: classMarks body)] := by
      simp only [classSigns, hclass]
    rw [hsigns]
    refine (Sign.mean_part (Expression.takes_one _) _).congr fun cs => ?_
    simp only [mem_single, Single.admits, Admits, hclass]
    simp

/-- Of a class that is closed before it ends, what is read is a character but the separator, and the
text behind it. -/
theorem read_classSigns_of_not_closes (hcloses : ¬ Closes body) {l : Level}
    (hmode : l.mode = .standard) :
    Progress.read ⟨[], l, .none⟩ (classSigns body) =
      Progress.read ⟨[], l.extend [.one (.oneOf ⟨true, [(separator, separator)]⟩)], .none⟩
        (Sign.ofMarks (CharClass.listing (listed body).tail ++ [.plain ']'])) := by
  have hclass := ofMarks?_of_not_closes hcloses []
  rw [List.append_nil] at hclass
  have hsigns : classSigns body = Sign.ofMarks (.plain '[' :: classMarks body) := by
    simp only [classSigns, hclass]
    split
    · next h => simp at h
    · rfl
  have htake : Progress.take ⟨[], l, .none⟩ '[' (Sign.ofMarks (classMarks body)) =
      .ok (⟨[], l.extend [.one (.oneOf ⟨true, [(separator, separator)]⟩)], .none⟩,
        Sign.ofMarks (CharClass.listing (listed body).tail ++ [.plain ']'])) := by
    rw [Progress.take_class hmode, Sign.flatMap_marks_ofMarks, hclass]
    rfl
  rw [hsigns]
  exact Progress.read_of_take Bool.false_ne_true htake

end Glob

end LinterSuite
