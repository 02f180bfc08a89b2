import LinterSuite.Proofs.Glob.Signs

/-!
# One component of a pattern

A component of a pattern describes a text from end to end: a star takes some of it, a question mark
or a class one character, and any other character itself. What the component writes means just the
texts that it describes, as long as every class in it is closed where it ends.

## Main definitions

* `Glob.Fits`: a text of which a component of a pattern describes the whole
* `Glob.classTexts`: the texts of the classes in a component

## Main results

* `Glob.mean_segmentSigns`: what a component writes means the texts that it describes
* `Glob.not_mem_of_fits`: these hold no separator, unless a class admits one
* `Glob.finished_segmentSigns`: what a component without brackets writes
-/

namespace LinterSuite.Glob

variable {segment cs text body rest : List Char} {c : Char}

/-! ### Texts that fit -/

/-- A component of a pattern describes a whole text: a star some characters of one component, a
question mark one of them, brackets one character that the class between them admits, and any other
character itself. A bracket that no other closes stands for itself. -/
inductive Fits : List Char → List Char → Prop
  | nil : Fits [] []
  | star {cs text rest : List Char} (htext : separator ∉ text) (hrest : Fits cs rest) :
    Fits ('*' :: cs) (text ++ rest)
  | any {cs rest : List Char} {c : Char} (hc : c ≠ separator) (hrest : Fits cs rest) :
    Fits ('?' :: cs) (c :: rest)
  | bracket {cs rest : List Char} (hopen : splitClass? cs = none) (hrest : Fits cs rest) :
    Fits ('[' :: cs) ('[' :: rest)
  | member {cs body more rest : List Char} {c : Char} (hclass : splitClass? cs = some (body, more))
    (hc : Admits body c) (hrest : Fits more rest) : Fits ('[' :: cs) (c :: rest)
  | same {cs rest : List Char} {c : Char} (hc : c ∉ ['*', '?', '[']) (hrest : Fits cs rest) :
    Fits (c :: cs) (c :: rest)

/-- The texts that a component of a pattern describes. -/
def fitting (segment : List Char) : Language Char := {text | Fits segment text}

theorem mem_fitting : text ∈ fitting segment ↔ Fits segment text := Iff.rfl

theorem fits_nil_iff : Fits [] text ↔ text = [] := by
  constructor
  · intro h
    cases h
    rfl
  · rintro rfl
    exact .nil

/-- Several stars in a row are one star. -/
theorem fits_star_iff : Fits ('*' :: cs) text ↔ ∃ front rest, text = front ++ rest ∧
    separator ∉ front ∧ Fits (cs.dropWhile (· == '*')) rest := by
  have hone : ∀ {cs text}, Fits ('*' :: cs) text ↔
      ∃ front rest, text = front ++ rest ∧ separator ∉ front ∧ Fits cs rest := by
    intro cs text
    constructor
    · intro h
      cases h with
      | star hfront hrest => exact ⟨_, _, rfl, hfront, hrest⟩
      | same hstar _ => simp at hstar
    · rintro ⟨front, rest, rfl, hfront, hrest⟩
      exact .star hfront hrest
  -- The stars behind the first one are taken off one by one; what they describe is joined.
  induction cs generalizing text with
  | nil => exact hone
  | cons c cs ih =>
    by_cases hc : c = '*'
    · subst hc
      rw [List.dropWhile_cons_of_pos (by simp), hone]
      constructor
      · rintro ⟨front, rest, rfl, hfront, hrest⟩
        obtain ⟨more, rest, rfl, hmore, hrest⟩ := ih.mp hrest
        refine ⟨front ++ more, rest, (List.append_assoc ..).symm, ?_, hrest⟩
        rw [List.mem_append]
        exact not_or.mpr ⟨hfront, hmore⟩
      · intro h
        exact ⟨[], text, rfl, List.not_mem_nil, ih.mpr h⟩
    · rw [List.dropWhile_cons_of_neg (by simpa using hc)]
      exact hone

theorem fits_any_iff :
    Fits ('?' :: cs) text ↔ ∃ c rest, text = c :: rest ∧ c ≠ separator ∧ Fits cs rest := by
  constructor
  · intro h
    cases h with
    | any hc hrest => exact ⟨_, _, rfl, hc, hrest⟩
    | same hany _ => simp at hany
  · rintro ⟨c, rest, rfl, hc, hrest⟩
    exact .any hc hrest

theorem fits_bracket_iff (hopen : splitClass? cs = none) :
    Fits ('[' :: cs) text ↔ ∃ rest, text = '[' :: rest ∧ Fits cs rest := by
  constructor
  · intro h
    cases h with
    | bracket _ hrest => exact ⟨_, rfl, hrest⟩
    | member hclass _ _ => exact nomatch hopen.symm.trans hclass
    | same hbracket _ => simp at hbracket
  · rintro ⟨rest, rfl, hrest⟩
    exact .bracket hopen hrest

theorem fits_member_iff (hclass : splitClass? cs = some (body, rest)) :
    Fits ('[' :: cs) text ↔ ∃ c more, text = c :: more ∧ Admits body c ∧ Fits rest more := by
  constructor
  · intro h
    cases h with
    | bracket hopen _ => exact nomatch hopen.symm.trans hclass
    | member hclass' hc hrest =>
      obtain ⟨rfl, rfl⟩ := Prod.mk.inj (Option.some.inj (hclass'.symm.trans hclass))
      exact ⟨_, _, rfl, hc, hrest⟩
    | same hbracket _ => simp at hbracket
  · rintro ⟨c, more, rfl, hc, hrest⟩
    exact .member hclass hc hrest

theorem fits_same_iff (hc : c ∉ ['*', '?', '[']) :
    Fits (c :: cs) text ↔ ∃ rest, text = c :: rest ∧ Fits cs rest := by
  constructor
  · intro h
    cases h with
    | same _ hrest => exact ⟨_, rfl, hrest⟩
    | _ => simp at hc
  · rintro ⟨rest, rfl, hrest⟩
    exact .same hc hrest

/-! ### What a component writes -/

/-- The texts of the classes in a component. -/
def classTexts : List Char → List (List Char)
  | [] => []
  | '[' :: cs =>
    match h : splitClass? cs with
    | none => classTexts cs
    | some (body, rest) =>
      have := length_of_splitClass? h
      body :: classTexts rest
  | _ :: cs => classTexts cs
termination_by cs => cs.length
decreasing_by all_goals simp only [List.length_cons]; omega

theorem classTexts_cons (hc : c ≠ '[') : classTexts (c :: cs) = classTexts cs := by
  rw [classTexts]
  rintro rfl
  exact hc rfl

theorem classTexts_bracket (hopen : splitClass? cs = none) :
    classTexts ('[' :: cs) = classTexts cs := by
  rw [classTexts]
  split
  · rfl
  · next h => exact nomatch hopen.symm.trans h

theorem classTexts_class (hclass : splitClass? cs = some (body, rest)) :
    classTexts ('[' :: cs) = body :: classTexts rest := by
  rw [classTexts]
  split
  · next h => exact nomatch hclass.symm.trans h
  · next h =>
    obtain ⟨rfl, rfl⟩ := Prod.mk.inj (Option.some.inj (hclass.symm.trans h))
    rfl

theorem classTexts_dropWhile : classTexts (cs.dropWhile (· == '*')) = classTexts cs := by
  induction cs with
  | nil => rfl
  | cons c cs ih =>
    by_cases hc : c = '*'
    · rw [List.dropWhile_cons_of_pos (by simpa using hc), ih, hc, classTexts_cons (by decide)]
    · rw [List.dropWhile_cons_of_neg (by simpa using hc)]

theorem mean_starSign : Sign.Mean [starSign] unseparated :=
  Sign.mean_part Expression.takes_inComponent _

theorem mean_oneSign : Sign.Mean [oneSign] (single (Single.inComponent.admits ·)) :=
  Sign.mean_part (Expression.takes_one _) _

theorem mean_charSign (c : Char) : Sign.Mean [charSign c] (single (· = c)) :=
  Sign.mean_part (Expression.takes_char c) _

/-- What a component of a pattern writes means the texts that it describes. -/
theorem mean_segmentSigns (hclasses : ∀ body ∈ classTexts segment, Closes body) :
    Sign.Mean (segmentSigns segment) (fitting segment) := by
  fun_induction segmentSigns segment with
  | case1 =>
    refine Sign.mean_nil.congr fun text => ?_
    rw [Language.mem_one, mem_fitting, fits_nil_iff]
  | case2 cs hlength ih =>
    -- Several stars in a row are written once.
    rw [classTexts_cons (by decide), ← classTexts_dropWhile] at hclasses
    refine (mean_starSign.cons (ih hclasses)).congr fun text => ?_
    simp only [Language.mem_mul, mem_unseparated, mem_fitting, fits_star_iff]
    constructor
    · rintro ⟨front, hfront, rest, hrest, rfl⟩
      exact ⟨front, rest, rfl, hfront, hrest⟩
    · rintro ⟨front, rest, rfl, hfront, hrest⟩
      exact ⟨front, hfront, rest, hrest, rfl⟩
  | case3 cs ih =>
    rw [classTexts_cons (by decide)] at hclasses
    refine (mean_oneSign.cons (ih hclasses)).congr fun text => ?_
    simp only [mem_single_mul, mem_fitting, fits_any_iff, Single.admits, bne_iff_ne]
  | case4 cs h ih =>
    -- A bracket that no other closes is written as it is.
    rw [classTexts_bracket h] at hclasses
    refine ((mean_charSign '[').cons (ih hclasses)).congr fun text => ?_
    simp only [mem_single_mul, mem_fitting, fits_bracket_iff h]
    simp
  | case5 cs body rest h hlength ih =>
    rw [classTexts_class h, List.forall_mem_cons] at hclasses
    have hclass := mean_classSigns (isClassText_of_splitClass? h) hclasses.1
    refine (hclass.append (ih hclasses.2)).congr fun text => ?_
    simp only [mem_single_mul, mem_fitting, fits_member_iff h]
  | case6 c cs hstar hany hopen ih =>
    have hc : c ∉ ['*', '?', '['] := by
      simp only [List.mem_cons, List.not_mem_nil, or_false, not_or]
      exact ⟨hstar, hany, hopen⟩
    rw [classTexts_cons hopen] at hclasses
    refine ((mean_charSign c).cons (ih hclasses)).congr fun text => ?_
    simp only [mem_single_mul, mem_fitting, fits_same_iff hc]
    simp

/-- What a component of a pattern describes holds no separator, if no class in it admits one. -/
theorem not_mem_of_fits (hsegment : separator ∉ segment)
    (hclasses : ∀ body ∈ classTexts segment, ¬ Admits body separator) (h : Fits segment text) :
    separator ∉ text := by
  induction h with
  | nil => exact List.not_mem_nil
  | star htext _ ih =>
    rw [classTexts_cons (by decide)] at hclasses
    rw [List.mem_append]
    exact not_or.mpr ⟨htext, ih (mt (List.mem_cons_of_mem _) hsegment) hclasses⟩
  | any hc _ ih =>
    rw [classTexts_cons (by decide)] at hclasses
    rw [List.mem_cons]
    exact not_or.mpr ⟨hc.symm, ih (mt (List.mem_cons_of_mem _) hsegment) hclasses⟩
  | bracket hopen _ ih =>
    rw [classTexts_bracket hopen] at hclasses
    rw [List.mem_cons]
    exact not_or.mpr ⟨by decide, ih (mt (List.mem_cons_of_mem _) hsegment) hclasses⟩
  | member hclass hc _ ih =>
    rw [classTexts_class hclass, List.forall_mem_cons] at hclasses
    obtain ⟨fixed, free, hcs, -⟩ := splitClass?_eq_some_iff.mp hclass
    rw [List.mem_cons]
    refine not_or.mpr ⟨?_, ih ?_ hclasses.2⟩
    · rintro rfl
      exact hclasses.1 hc
    · intro hmem
      apply hsegment
      simp [hcs, hmem]
  | same hc _ ih =>
    obtain ⟨hfirst, hsegment⟩ := not_or.mp (mt List.mem_cons.mpr hsegment)
    rw [classTexts_cons (by simp_all)] at hclasses
    rw [List.mem_cons]
    exact not_or.mpr ⟨hfirst, ih hsegment hclasses⟩

/-! ### Components without classes -/

theorem classTexts_of_not_mem (h : '[' ∉ segment) : classTexts segment = [] := by
  induction segment with
  | nil => exact classTexts.eq_1
  | cons c cs ih =>
    obtain ⟨hc, hcs⟩ := not_or.mp (mt List.mem_cons.mpr h)
    rw [classTexts_cons (Ne.symm hc), ih hcs]

theorem finished_segmentSigns (h : '[' ∉ segment) : Sign.Finished (segmentSigns segment) := by
  fun_induction segmentSigns segment with
  | case1 => exact Sign.finished_nil
  | case2 cs _ ih =>
    refine (ih fun hmem => h ?_).cons _ _
    exact List.mem_cons_of_mem _ ((List.dropWhile_suffix _).subset hmem)
  | case3 cs ih | case6 _ cs _ _ _ ih => exact (ih (mt (List.mem_cons_of_mem _) h)).cons _ _
  | case4 | case5 => exact absurd List.mem_cons_self h

end LinterSuite.Glob
