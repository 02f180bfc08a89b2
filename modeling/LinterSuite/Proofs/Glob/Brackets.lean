import LinterSuite.Glob.Pattern
import LinterSuite.Proofs.Glob.Taking

/-!
# Between brackets

The text between two brackets lists the characters of a class. It is read member by member, and the
bracket behind it closes the class, unless another bracket does so before. What was read of a class
does not depend on what follows it.

A negated class lists the separator first. That makes sure that it never admits one; but what was
the first character of the text is the second then, and may mean something else there.

## Main definitions

* `CharClass.Enlists`: the characters that a text lists
* `Glob.IsClassText`: what can stand between two brackets
* `Glob.Closes`: the bracket that ends a class is the one that closes it
* `Glob.Admits`: the characters of a class

## Main results

* `CharClass.members?_append`: what follows a class has no part in it
* `Glob.splitClass?_of_isClassText`, `Glob.isClassText_of_splitClass?`: what stands between brackets
* `Glob.unreadable_or_readable`: a class that is closed where it ends can be read as a whole, or not
  at all
* `Glob.admits_iff_enlists`, `Glob.admits_iff_not_enlists`: the members of a class
* `Glob.not_admits_separator`: a negated class never admits the separator
-/

namespace LinterSuite

namespace CharClass

variable {seen ranges : List (Char × Char)} {c d : Mark} {ms rest : List Mark} {text : List Char}

/-! ### One member after the other -/

theorem members?_close (h : seen ≠ []) (rest : List Mark) :
    members? seen (.plain ']' :: rest) = some (seen, rest) := by
  unfold members?
  exact if_pos ⟨rfl, h⟩

theorem members?_single (hc : ¬ (c = .plain ']' ∧ seen ≠ []))
    (hms : ms.head? ≠ some (.plain '-')) :
    members? seen (c :: ms) = members? (seen ++ [(c.char, c.char)]) ms := by
  conv_lhs => unfold members?
  rw [if_neg hc]
  rcases ms with _ | ⟨d, _ | ⟨e, ms⟩⟩
  · rfl
  all_goals
    have hd : d ≠ .plain '-' := fun heq => hms (congrArg some heq)
    exact if_neg hd

theorem members?_range (hc : ¬ (c = .plain ']' ∧ seen ≠ [])) (hd : d ≠ .plain ']')
    (ms : List Mark) :
    members? seen (c :: .plain '-' :: d :: ms) =
      if d.char < c.char then none else members? (seen ++ [(c.char, d.char)]) ms := by
  conv_lhs => unfold members?
  rw [if_neg hc]
  exact (if_pos rfl).trans (if_neg hd)

theorem members?_hyphen (hc : ¬ (c = .plain ']' ∧ seen ≠ [])) (ms : List Mark) :
    members? seen (c :: .plain '-' :: .plain ']' :: ms) =
      some (seen ++ [(c.char, c.char), ('-', '-')], ms) := by
  conv_lhs => unfold members?
  rw [if_neg hc]
  rfl

theorem members?_hyphen_end (hc : ¬ (c = .plain ']' ∧ seen ≠ [])) :
    members? seen [c, .plain '-'] = none := by
  unfold members?
  rw [if_neg hc]
  rfl

/-- Members that were seen stay members. -/
theorem prefix_of_members? (h : members? seen ms = some (ranges, rest)) : seen <+: ranges := by
  fun_induction members? seen ms with
  | case2 => cases h; exact List.prefix_rfl
  | case6 => cases h; exact List.prefix_append _ _
  | case5 _ _ _ _ _ ih | case8 _ _ _ _ _ _ _ ih | case9 _ _ _ _ _ _ _ ih =>
    exact (List.prefix_append _ _).trans (ih h)
  | _ => cases h

/-- What is read of a class ends with a closing bracket, which is not the first member. -/
theorem exists_used_of_members? (h : members? seen ms = some (ranges, rest)) :
    ∃ used, ms = used ++ .plain ']' :: rest ∧ (seen = [] → used ≠ []) := by
  fun_induction members? seen ms with
  | case2 seen c ms hclose =>
    cases h
    exact ⟨[], by simp [hclose.1], fun h => absurd h hclose.2⟩
  | case6 seen c hc ms =>
    cases h
    exact ⟨[c, .plain '-'], rfl, by simp⟩
  | case5 seen c hc d hd ih =>
    obtain ⟨used, hused, -⟩ := ih h
    exact ⟨c :: used, by rw [hused]; rfl, by simp⟩
  | case8 seen c hc d ms hd hlt ih =>
    obtain ⟨used, hused, -⟩ := ih h
    exact ⟨c :: .plain '-' :: d :: used, by rw [hused]; rfl, by simp⟩
  | case9 seen c hc d e ms hd ih =>
    obtain ⟨used, hused, -⟩ := ih h
    exact ⟨c :: used, by rw [hused]; rfl, by simp⟩
  | _ => cases h

/-- A class is read up to its last bracket if none of its other characters closes it. -/
theorem eq_nil_of_members? (h : members? seen (ms ++ [.plain ']']) = some (ranges, rest))
    (hseen : seen ≠ [] → .plain ']' ∉ ms) (htail : .plain ']' ∉ ms.tail) : rest = [] := by
  obtain ⟨used, hused, hfirst⟩ := exists_used_of_members? h
  rcases List.eq_nil_or_concat rest with rfl | ⟨init, last, rfl⟩
  · rfl
  · -- Otherwise a bracket among the characters closed the class.
    have hms : ms = used ++ .plain ']' :: init := by
      rw [List.concat_eq_append, ← List.cons_append, ← List.append_assoc] at hused
      exact (List.append_inj' hused rfl).1
    by_cases hne : seen = []
    · obtain ⟨c, used, rfl⟩ := List.exists_cons_of_ne_nil (hfirst hne)
      exact absurd (by simp [hms]) htail
    · exact absurd (by simp [hms]) (hseen hne)

/-- The members of a class do not depend on what follows it. -/
theorem members?_append (more : List Mark) (h : seen = [] → ms ≠ []) :
    members? seen (ms ++ .plain ']' :: more) =
      (members? seen (ms ++ [.plain ']'])).map fun r => (r.1, r.2 ++ more) := by
  fun_induction members? seen ms with
  | case1 seen =>
    -- No mark is left but the bracket, and it closes the class.
    have hseen : seen ≠ [] := fun heq => h heq rfl
    rw [List.nil_append, List.nil_append, members?_close hseen, members?_close hseen]
    rfl
  | case2 seen c ms hclose =>
    rw [hclose.1]
    simp only [List.cons_append, members?_close hclose.2]
    simp
  | case3 seen c hc =>
    simp only [List.cons_append, List.nil_append]
    rw [members?_single hc (by simp [Mark.plain]), members?_single hc (by simp [Mark.plain]),
      members?_close (by simp), members?_close (by simp)]
    rfl
  | case4 seen c hc =>
    simp only [List.cons_append, List.nil_append]
    rw [members?_hyphen hc, members?_hyphen hc]
    rfl
  | case6 seen c hc ms =>
    simp only [List.cons_append]
    rw [members?_hyphen hc, members?_hyphen hc]
    simp
  | case7 seen c hc d ms hd hlt =>
    simp only [List.cons_append]
    rw [members?_range hc hd, members?_range hc hd, if_pos hlt, if_pos hlt]
    rfl
  | case8 seen c hc d ms hd hlt ih =>
    simp only [List.cons_append]
    rw [members?_range hc hd, members?_range hc hd, if_neg hlt, if_neg hlt, ih (by simp)]
  | case5 seen c hc d hd ih | case9 seen c hc d _ _ hd ih =>
    have hhead : ∀ ms : List Mark, (d :: ms).head? ≠ some (.plain '-') := by simpa using hd
    simp only [List.cons_append] at ih ⊢
    rw [members?_single hc (hhead _), members?_single hc (hhead _), ih (by simp)]

/-- Nor do they depend on the members in front of them. -/
theorem members?_append_seen (before : List (Char × Char))
    (h : seen = [] → ms.head? ≠ some (.plain ']')) :
    members? (before ++ seen) ms = (members? seen ms).map fun r => (before ++ r.1, r.2) := by
  -- More members in front let no bracket close the class that did not close it before.
  have hopen : ∀ {seen : List (Char × Char)} {c : Mark} {ms : List Mark},
      (seen = [] → (c :: ms).head? ≠ some (.plain ']')) → ¬ (c = .plain ']' ∧ seen ≠ []) →
        ¬ (c = .plain ']' ∧ before ++ seen ≠ []) := by
    rintro seen c ms hfirst hc ⟨rfl, -⟩
    exact hc ⟨rfl, fun hseen => hfirst hseen rfl⟩
  fun_induction members? seen ms with
  | case1 => rfl
  | case2 seen c ms hclose =>
    rw [hclose.1, members?_close (by simp [hclose.2])]
    rfl
  | case3 seen c hc => rw [members?_single (hopen h hc) (by simp)]; rfl
  | case4 seen c hc => rw [members?_hyphen_end (hopen h hc)]; rfl
  | case6 seen c hc ms => rw [members?_hyphen (hopen h hc)]; simp
  | case7 seen c hc d ms hd hlt => rw [members?_range (hopen h hc) hd, if_pos hlt]; rfl
  | case8 seen c hc d ms hd hlt ih =>
    rw [members?_range (hopen h hc) hd, if_neg hlt, List.append_assoc, ih (by simp)]
  | case5 seen c hc d hd ih | case9 seen c hc d _ _ hd ih =>
    rw [members?_single (hopen h hc) (by simpa using hd), List.append_assoc, ih (by simp)]

/-! ### Listed characters -/

/-- The marks of listed characters. A backslash is quoted: it stands for itself. -/
def listing (text : List Char) : List Mark := text.map fun c => ⟨c, c = '\\'⟩

/-- The characters that a text lists, behind some ranges that were listed before. -/
def Enlists (seen : List (Char × Char)) (text : List Char) (c : Char) : Prop :=
  ∃ ranges, members? seen (listing text ++ [.plain ']']) = some (ranges, []) ∧ inRanges ranges c

theorem listing_cons (c : Char) (text : List Char) :
    listing (c :: text) = ⟨c, c = '\\'⟩ :: listing text := rfl

theorem listing_separator (text : List Char) :
    listing (separator :: text) = .plain separator :: listing text := rfl

theorem mem_listing_iff {c : Char} (hc : c ≠ '\\') : .plain c ∈ listing text ↔ c ∈ text := by
  simp only [listing, List.mem_map, Mark.plain, Mark.mk.injEq, decide_eq_false_iff_not]
  constructor
  · rintro ⟨d, hd, rfl, -⟩
    exact hd
  · exact fun h => ⟨c, h, rfl, hc⟩

@[simp] theorem inRanges_cons (r : Char × Char) (ranges : List (Char × Char)) (c : Char) :
    inRanges (r :: ranges) c ↔ (r.1 ≤ c ∧ c ≤ r.2) ∨ inRanges ranges c := by
  simp [inRanges]

theorem enlists_iff {c : Char}
    (h : members? seen (listing text ++ [.plain ']']) = some (ranges, [])) :
    Enlists seen text c ↔ inRanges ranges c := by
  constructor
  · rintro ⟨ranges', h', hc⟩
    obtain ⟨rfl, -⟩ := Prod.mk.inj (Option.some.inj (h.symm.trans h'))
    exact hc
  · exact fun hc => ⟨ranges, h, hc⟩

/-- A list that begins with the separator lists it, as a single character or as the start of a
range. -/
theorem inRanges_separator (h : members? [] (.plain separator :: ms) = some (ranges, rest)) :
    inRanges ranges separator := by
  have hc : ¬ (Mark.plain separator = .plain ']' ∧ ([] : List (Char × Char)) ≠ []) := by simp
  -- It is enough that the ranges begin with one from the separator upwards.
  have hfirst : ∀ {last : Char} {more : List (Char × Char)}, separator ≤ last →
      (separator, last) :: more <+: ranges → inRanges ranges separator := by
    rintro last more hle ⟨_, rfl⟩
    rw [List.cons_append, inRanges_cons]
    exact .inl ⟨Char.le_refl _, hle⟩
  match ms with
  | [] => rw [members?_single hc (by simp)] at h; exact nomatch h
  | [d] =>
    by_cases hd : d = .plain '-'
    · rw [hd, members?_hyphen_end hc] at h
      exact nomatch h
    · rw [members?_single hc (by simpa using hd)] at h
      exact hfirst (Char.le_refl _) (prefix_of_members? h)
  | d :: e :: ms =>
    by_cases hd : d = .plain '-'
    · subst hd
      by_cases he : e = .plain ']'
      · rw [he, members?_hyphen hc] at h
        cases h
        exact hfirst (Char.le_refl _) List.prefix_rfl
      · rw [members?_range hc he] at h
        by_cases hlt : e.char < separator
        · rw [if_pos (show e.char < (Mark.plain separator).char from hlt)] at h
          exact nomatch h
        · rw [if_neg (show ¬ e.char < (Mark.plain separator).char from hlt)] at h
          exact hfirst (Char.not_lt.mp hlt) (prefix_of_members? h)
    · rw [members?_single hc (by simpa using hd)] at h
      exact hfirst (Char.le_refl _) (prefix_of_members? h)

end CharClass

namespace Glob

open CharClass (listing Enlists)

variable {body rest cs : List Char} {k : CharClass}

/-! ### The text of a class -/

/-- The class has a negation sign. -/
def isNegated : List Char → Bool
  | '!' :: _ | '^' :: _ => true
  | _ => false

/-- The text of a class behind its negation sign, if it has one. -/
def listed (body : List Char) : List Char := if isNegated body then body.drop 1 else body

theorem isNegated_iff : isNegated cs ↔ cs.head? = some '!' ∨ cs.head? = some '^' := by
  fun_cases isNegated cs with
  | case1 | case2 => simp
  | case3 _ hbang hcaret =>
    simp only [Bool.false_eq_true, List.head?_eq_some_iff, false_iff]
    rintro (⟨more, h⟩ | ⟨more, h⟩)
    · exact hbang more h
    · exact hcaret more h

theorem listed_of_not_isNegated (h : ¬ isNegated body) : listed body = body := if_neg h

theorem listed_cons_of_isNegated {sign : Char} {text : List Char}
    (h : isNegated (sign :: text)) : listed (sign :: text) = text := if_pos h

/-- What can stand between two brackets: some text in which no bracket closes the class, or the
first one does where it does not count. -/
def IsClassText (body : List Char) : Prop := listed body ≠ [] ∧ ']' ∉ (listed body).tail

/-- The bracket that ends a class is the one that closes it. Behind a negation sign stands the
separator, so that a bracket that comes next is not the first one any more. -/
def Closes (body : List Char) : Prop := isNegated body → (listed body).head? ≠ some ']'

/-- The characters that are written for a class, as members of it. -/
def written (body : List Char) : List Char :=
  if isNegated body then separator :: listed body else listed body

/-- The text behind an opening bracket is split behind what cannot close the class. -/
theorem splitClass?_eq_some_iff :
    splitClass? cs = some (body, rest) ↔ ∃ fixed free, cs = fixed ++ (free ++ ']' :: rest) ∧
      fixed.length = fixedInClass cs ∧ ']' ∉ free ∧ body = fixed ++ free := by
  have hstop : ∀ c ∈ ([']'] : List Char), ¬ (c != ']') = true := by simp
  constructor
  · intro h
    unfold splitClass? at h
    simp only at h
    split at h
    · exact nomatch h
    · next c rest' hdrop =>
      obtain ⟨rfl, rfl⟩ := Prod.mk.inj (Option.some.inj h)
      -- The search stops at nothing but a bracket.
      have hc : c = ']' := by
        have := List.head?_dropWhile_not (fun c => c != ']') (cs.drop (fixedInClass cs))
        rw [hdrop] at this
        simpa using this
      subst hc
      refine ⟨cs.take (fixedInClass cs), (cs.drop (fixedInClass cs)).takeWhile (· != ']'),
        ?_, ?_, ?_, rfl⟩
      · rw [← hdrop, List.takeWhile_append_dropWhile, List.take_append_drop]
      · rw [List.length_take, Nat.min_eq_left]
        by_contra hlt
        rw [List.drop_of_length_le (by omega)] at hdrop
        exact nomatch hdrop
      · intro hmem
        simpa using List.all_eq_true.mp List.all_takeWhile _ hmem
  · rintro ⟨fixed, free, hcs, hlength, hfree, rfl⟩
    have hpass : ∀ c ∈ free, (c != ']') = true := fun c hc =>
      bne_iff_ne.mpr fun heq => hfree (heq ▸ hc)
    unfold splitClass?
    rw [← hlength]
    conv_lhs => rw [hcs]
    simp only [List.drop_left, List.take_left, List.dropWhile_append_of_pos hpass,
      List.takeWhile_append_of_pos hpass]
    simp

theorem isClassText_of_splitClass? (h : splitClass? cs = some (body, rest)) :
    IsClassText body := by
  obtain ⟨fixed, free, hcs, hlength, hfree, rfl⟩ := splitClass?_eq_some_iff.mp h
  -- What cannot close the class is a sign and a bracket, a sign, a bracket, or nothing.
  fun_cases fixedInClass cs with
  | case1 | case2 =>
    obtain ⟨sign, first, rfl⟩ := List.length_eq_two.mp hlength
    obtain ⟨rfl, rfl, -⟩ := List.cons_eq_cons.mp hcs |>.imp_right List.cons_eq_cons.mp
    exact ⟨by simp [listed, isNegated], hfree⟩
  | case3 more hfirst | case4 more hfirst =>
    rw [fixedInClass] at hlength
    · obtain ⟨sign, rfl⟩ := List.length_eq_one_iff.mp hlength
      obtain ⟨rfl, rfl⟩ := List.cons_eq_cons.mp hcs
      refine ⟨fun hnil : free = [] => ?_, fun hmem => hfree (List.mem_of_mem_tail hmem)⟩
      exact hfirst rest (by simp [hnil])
    · exact hfirst
  | case5 =>
    obtain ⟨first, rfl⟩ := List.length_eq_one_iff.mp hlength
    obtain ⟨rfl, -⟩ := List.cons_eq_cons.mp hcs
    exact ⟨by simp [listed, isNegated], hfree⟩
  | case6 _ _ _ hbang hcaret hclose =>
    have hnone : fixedInClass cs = 0 := by rw [fixedInClass] <;> assumption
    obtain rfl := List.length_eq_zero_iff.mp (hlength.trans hnone)
    rw [List.nil_append] at hcs ⊢
    obtain ⟨first, free, rfl⟩ : ∃ first more, free = first :: more := by
      refine List.exists_cons_of_ne_nil fun hnil => hclose rest ?_
      rw [hcs, hnil, List.nil_append]
    have hsign : ¬ isNegated (first :: free) := by
      rw [isNegated_iff]
      rintro (h | h) <;> obtain rfl := Option.some.inj h
      · exact hbang _ hcs
      · exact hcaret _ hcs
    rw [IsClassText, listed_of_not_isNegated hsign]
    exact ⟨by simp, fun hmem => hfree (List.mem_cons_of_mem _ hmem)⟩

theorem splitClass?_of_isClassText (h : IsClassText body) (rest : List Char) :
    splitClass? (body ++ ']' :: rest) = some (body, rest) := by
  obtain ⟨hne, htail⟩ := h
  rw [splitClass?_eq_some_iff]
  by_cases hsign : isNegated body
  · obtain ⟨sign, text, rfl⟩ : ∃ sign text, body = sign :: text := by
      refine List.exists_cons_of_ne_nil ?_
      rintro rfl
      exact hne rfl
    rw [listed_cons_of_isNegated hsign] at hne htail
    obtain ⟨first, free, rfl⟩ := List.exists_cons_of_ne_nil hne
    -- A bracket next to the sign is the first member, and does not close the class either.
    have hfixed : fixedInClass (sign :: first :: free ++ ']' :: rest) =
        if first = ']' then 2 else 1 := by
      rcases isNegated_iff.mp hsign with h | h <;> obtain rfl := Option.some.inj h <;>
        by_cases hfirst : first = ']' <;> simp [fixedInClass, hfirst]
    by_cases hfirst : first = ']'
    · exact ⟨[sign, first], free, rfl, by rw [hfixed, if_pos hfirst]; rfl, htail, rfl⟩
    · exact ⟨[sign], first :: free, rfl, by rw [hfixed, if_neg hfirst]; rfl,
        mt List.mem_cons.mp (not_or.mpr ⟨Ne.symm hfirst, htail⟩), rfl⟩
  · rw [listed_of_not_isNegated hsign] at hne htail
    obtain ⟨first, free, rfl⟩ := List.exists_cons_of_ne_nil hne
    have hfixed : fixedInClass (first :: free ++ ']' :: rest) = if first = ']' then 1 else 0 := by
      rw [isNegated_iff] at hsign
      by_cases hfirst : first = ']'
      · simp [fixedInClass, hfirst]
      · rw [fixedInClass] <;> simp_all
    by_cases hfirst : first = ']'
    · exact ⟨[first], free, rfl, by rw [hfixed, if_pos hfirst]; rfl, htail, rfl⟩
    · exact ⟨[], first :: free, rfl, by rw [hfixed, if_neg hfirst]; rfl,
        mt List.mem_cons.mp (not_or.mpr ⟨Ne.symm hfirst, htail⟩), rfl⟩

/-! ### What a class admits -/

theorem classMarks_eq (body : List Char) :
    classMarks body = (if isNegated body then Mark.plains ['^', separator] else []) ++
      listing (listed body) ++ [.plain ']'] := rfl

/-- The marks of a class are read as the members that are written for it. -/
theorem ofMarks?_classMarks (body : List Char) (more : List Mark) :
    CharClass.ofMarks? (classMarks body ++ more) =
      (CharClass.members? [] (listing (written body) ++ .plain ']' :: more)).map
        fun r => (⟨isNegated body, r.1⟩, r.2) := by
  rw [classMarks_eq, List.append_assoc, List.append_assoc, List.singleton_append]
  by_cases hsign : isNegated body
  · rw [written, if_pos hsign, if_pos hsign, hsign, CharClass.listing_separator]
    rfl
  · rw [written, if_neg hsign, if_neg hsign, List.nil_append, Bool.not_eq_true _ |>.mp hsign]
    cases htext : listed body with
    | nil => rfl
    | cons d text =>
      -- What is listed does not begin with the sign of a negation.
      have hd : d ≠ '^' := by
        rintro rfl
        rw [listed_of_not_isNegated hsign] at htext
        exact hsign (isNegated_iff.mpr (.inr (by rw [htext]; rfl)))
      exact if_neg fun heq => hd (congrArg Mark.char heq)

/-- The class between two brackets can be read, and the character is one of it. -/
def Admits (body : List Char) (c : Char) : Prop :=
  ∃ k, CharClass.ofMarks? (classMarks body) = some (k, []) ∧ k.contains c

theorem ofMarks?_classMarks_eq_some_iff :
    CharClass.ofMarks? (classMarks body) = some (k, []) ↔
      ∃ ranges, CharClass.members? [] (listing (written body) ++ [.plain ']']) = some (ranges, []) ∧
        k = ⟨isNegated body, ranges⟩ := by
  have h := ofMarks?_classMarks body []
  rw [List.append_nil] at h
  rw [h, Option.map_eq_some_iff]
  constructor
  · rintro ⟨⟨ranges, _⟩, hmembers, heq⟩
    obtain ⟨rfl, rfl⟩ := Prod.mk.inj heq
    exact ⟨ranges, hmembers, rfl⟩
  · rintro ⟨ranges, hmembers, rfl⟩
    exact ⟨(ranges, []), hmembers, rfl⟩

/-- A class without a negation sign admits what it lists. -/
theorem admits_iff_enlists {c : Char} (hsign : ¬ isNegated body) :
    Admits body c ↔ Enlists [] body c := by
  have hwritten : written body = body := by
    rw [written, if_neg hsign, listed_of_not_isNegated hsign]
  simp only [Admits, ofMarks?_classMarks_eq_some_iff, hwritten, Enlists]
  constructor
  · rintro ⟨_, ⟨ranges, hmembers, rfl⟩, hc⟩
    exact ⟨ranges, hmembers, by simpa [CharClass.contains, hsign] using hc⟩
  · rintro ⟨ranges, hmembers, hc⟩
    exact ⟨_, ⟨ranges, hmembers, rfl⟩, by simpa [CharClass.contains, hsign] using hc⟩

/-- A class with a negation sign that can be read admits what is not listed behind a separator. -/
theorem admits_iff_not_enlists {c : Char} (hsign : isNegated body)
    (hread : CharClass.ofMarks? (classMarks body) = some (k, [])) :
    Admits body c ↔ ¬ Enlists [] (separator :: listed body) c := by
  have hwritten : written body = separator :: listed body := if_pos hsign
  obtain ⟨ranges, hmembers, rfl⟩ := ofMarks?_classMarks_eq_some_iff.mp hread
  rw [hwritten] at hmembers
  rw [CharClass.enlists_iff hmembers, Admits, hread]
  simp [CharClass.contains, hsign]

/-- A negated class never admits the separator. -/
theorem not_admits_separator (hsign : isNegated body) : ¬ Admits body separator := by
  rintro ⟨k, hread, hc⟩
  obtain ⟨ranges, hmembers, rfl⟩ := ofMarks?_classMarks_eq_some_iff.mp hread
  rw [written, if_pos hsign, CharClass.listing_separator, List.cons_append] at hmembers
  have hseparator := CharClass.inRanges_separator hmembers
  simp [CharClass.contains, hseparator, hsign] at hc

/-- A class that is closed where it ends can be read as a whole, or not at all. -/
theorem unreadable_or_readable (hbody : IsClassText body) (hcloses : Closes body) :
    (∀ more, CharClass.ofMarks? (classMarks body ++ more) = none) ∨
      ∃ k, CharClass.ofMarks? (classMarks body) = some (k, []) := by
  have hne : written body ≠ [] := by
    rw [written]
    split
    · simp
    · exact hbody.1
  have hlisting : listing (written body) ≠ [] := by simpa [listing] using hne
  -- A bracket among the members that are written could only be the first of them.
  have htail : .plain ']' ∉ (listing (written body)).tail := by
    rw [listing, ← List.map_tail, ← listing, CharClass.mem_listing_iff (by decide)]
    rw [written]
    split
    · next hsign =>
      rw [List.tail_cons]
      intro hmem
      obtain ⟨first, text, htext⟩ := List.exists_cons_of_ne_nil hbody.1
      have htail := hbody.2
      have hfirst := hcloses hsign
      rw [htext] at hmem htail hfirst
      rcases List.mem_cons.mp hmem with rfl | hmem
      · exact hfirst rfl
      · exact htail hmem
    · exact hbody.2
  cases hmembers : CharClass.members? [] (listing (written body) ++ [.plain ']']) with
  | none =>
    refine .inl fun more => ?_
    rw [ofMarks?_classMarks, CharClass.members?_append more fun _ => hlisting, hmembers]
    rfl
  | some r =>
    obtain ⟨ranges, rest⟩ := r
    obtain rfl := CharClass.eq_nil_of_members? hmembers (fun h => absurd rfl h) htail
    exact .inr ⟨_, ofMarks?_classMarks_eq_some_iff.mpr ⟨ranges, hmembers, rfl⟩⟩

/-- A class that is closed before it ends consists of the separator, and what comes then is not part
of it. -/
theorem ofMarks?_of_not_closes (hcloses : ¬ Closes body) (more : List Mark) :
    CharClass.ofMarks? (classMarks body ++ more) =
      some (⟨true, [(separator, separator)]⟩,
        listing (listed body).tail ++ .plain ']' :: more) := by
  obtain ⟨hsign, hfirst⟩ := Classical.not_imp.mp hcloses
  obtain ⟨text, htext⟩ := List.head?_eq_some_iff.mp (not_not.mp hfirst)
  have hfirst : listing (']' :: text) = .plain ']' :: listing text := rfl
  have hsep : ¬ (Mark.plain separator = .plain ']' ∧ ([] : List (Char × Char)) ≠ []) := by simp
  rw [ofMarks?_classMarks, written, if_pos hsign, CharClass.listing_separator, htext, hfirst,
    List.cons_append, List.cons_append, CharClass.members?_single hsep (by simp [Mark.plain]),
    CharClass.members?_close (by simp), hsign]
  rfl

end Glob

end LinterSuite
