import LinterSuite.Proofs.Glob.Components

/-!
# Negated classes

A negated class should admit exactly the characters that the class without the sign does not admit,
the separator apart. The separator stands in front of what the class lists then. A hyphen that comes
next makes a range of it, which may hold other characters than the class without the sign. A bracket
that comes next closes the class, so that what should have been listed is text behind it.

## Main definitions

* `Glob.classPattern`: the pattern of a class alone

## Main results

* `Glob.accepts_classPattern_iff`: what the pattern of a class matches
* `Glob.negated_complement_iff`: when a negated class is the complement of the class
* `Glob.negated_not_complement`: classes of which it is not
-/

namespace LinterSuite

namespace CharClass

variable {text rest : List Char} {c d : Char}

/-! ### The separator in front of a list -/

theorem inRanges_separator_cons_iff {ranges : List (Char × Char)} :
    inRanges ((separator, separator) :: ranges) c ↔ c = separator ∨ inRanges ranges c := by
  rw [inRanges_cons]
  refine or_congr_left ⟨fun h => Char.le_antisymm h.2 h.1, ?_⟩
  rintro rfl
  exact ⟨Char.le_refl _, Char.le_refl _⟩

/-- The class of all characters but the separator. -/
theorem contains_separator_iff :
    (⟨true, [(separator, separator)]⟩ : CharClass).contains c ↔ c ≠ separator := by
  have h : inRanges [(separator, separator)] c ↔ c = separator ∨ inRanges [] c :=
    inRanges_separator_cons_iff
  simp only [inRanges, List.any_nil, Bool.false_eq_true, or_false] at h
  rw [contains, bne_iff_ne, ne_eq, inRanges, h]

/-- The separator in front of a list changes nothing else, unless a bracket or a hyphen comes
next. -/
theorem enlists_separator_cons_iff (hclose : d ≠ ']') (hhyphen : d ≠ '-') (hc : c ≠ separator) :
    Enlists [] (separator :: d :: rest) c ↔ Enlists [] (d :: rest) c := by
  -- The separator is a member on its own, and the others are read as they are without it.
  have hmembers : members? [] (listing (separator :: d :: rest) ++ [.plain ']']) =
      (members? [] (listing (d :: rest) ++ [.plain ']'])).map fun r =>
        ((separator, separator) :: r.1, r.2) := by
    rw [listing_separator, listing_cons, List.cons_append, List.cons_append,
      members?_single (fun h => h.2 rfl) (by simp [Mark.plain, hhyphen])]
    exact members?_append_seen [(separator, separator)] fun _ => by simp [Mark.plain, hclose]
  simp only [Enlists, hmembers, Option.map_eq_some_iff, Prod.mk.injEq]
  constructor
  · rintro ⟨_, ⟨⟨ranges, _⟩, hread, rfl, rfl⟩, hin⟩
    exact ⟨ranges, hread, (inRanges_separator_cons_iff.mp hin).resolve_left hc⟩
  · rintro ⟨ranges, hread, hin⟩
    exact ⟨_, ⟨⟨ranges, _⟩, hread, rfl, rfl⟩, inRanges_separator_cons_iff.mpr (.inr hin)⟩

/-- A hyphen at the end of a list stands for itself, also behind the separator. -/
theorem enlists_separator_hyphen_iff (hc : c ≠ separator) :
    Enlists [] [separator, '-'] c ↔ Enlists [] ['-'] c := by
  have hbehind : members? [] (listing [separator, '-'] ++ [.plain ']']) =
      some ([(separator, separator), ('-', '-')], []) := by decide
  have halone : members? [] (listing ['-'] ++ [.plain ']']) = some ([('-', '-')], []) := by decide
  rw [enlists_iff hbehind, enlists_iff halone, inRanges_separator_cons_iff,
    or_iff_right hc]

/-- A hyphen that comes next makes a range of it. -/
theorem enlists_separator_range_iff {ranges : List (Char × Char)} {left : List Mark} (hd : d ≠ ']')
    (hread : members? [] (listing (separator :: '-' :: d :: rest) ++ [.plain ']']) =
      some (ranges, left)) :
    Enlists [] (separator :: '-' :: d :: rest) c ↔ Enlists [(separator, d)] rest c := by
  have hclose : (⟨d, d = '\\'⟩ : Mark) ≠ .plain ']' := fun h => hd (congrArg Mark.char h)
  have hmembers : members? [] (listing (separator :: '-' :: d :: rest) ++ [.plain ']']) =
      if d < separator then none
      else members? [(separator, d)] (listing rest ++ [.plain ']']) :=
    members?_range (fun h => h.2 rfl) hclose _
  -- A range that leads downwards would not have been read.
  have hle : ¬ d < separator := by
    intro hlt
    rw [hmembers, if_pos hlt] at hread
    exact nomatch hread
  rw [Enlists, hmembers, if_neg hle, Enlists]

end CharClass

namespace Glob

open scoped Computability
open CharClass (Enlists listing)

variable {body text name rest : List Char} {c d : Char} {g : Glob} {isDir : Bool}

/-! ### Patterns of one class -/

/-- The pattern of a class alone. -/
def classPattern (body : List Char) : String := String.ofList ('[' :: (body ++ [']']))

theorem layout_classPattern (hbody : separator ∉ body) :
    layout (classPattern body) = ⟨false, false, ['[' :: (body ++ [']'])]⟩ := by
  have hopen : Text.isBlank '[' = false := by decide
  have hclose : Text.isBlank ']' = false := by decide
  -- Brackets are neither blank nor separators, so nothing is taken off at the ends.
  have hstrip : Text.stripChars ('[' :: (body ++ [']'])) = '[' :: (body ++ [']']) := by
    simp [Text.stripChars, hopen, hclose]
  have htrailing : ('[' :: (body ++ [']'])).rdropWhile (· == separator) =
      '[' :: (body ++ [']']) := by
    rw [← List.cons_append, List.rdropWhile_concat_neg _ _ _ (by decide)]
  have hdots : dropDots ('[' :: (body ++ [']'])) = '[' :: (body ++ [']']) := rfl
  have hlast : ('[' :: (body ++ [']'])).getLast? = some ']' := by
    rw [← List.cons_append, List.getLast?_concat]
  have hmem : separator ∉ '[' :: (body ++ [']']) := by
    simp only [List.mem_cons, List.mem_append, List.not_mem_nil, or_false, not_or]
    exact ⟨by decide, hbody, by decide⟩
  simp only [layout, classPattern, String.toList_ofList, hstrip, hdots, htrailing, hlast,
    List.contains_eq_mem, hmem]
  rw [List.dropWhile_cons_of_neg (by decide), if_neg (List.cons_ne_nil _ _), splitComponents,
    Text.pieces_of_not_mem hmem]
  rfl

theorem mem_directories_mul_iff_of_not_mem {L : Language Char} (htext : separator ∉ text) :
    text ∈ directory∗ * L ↔ text ∈ L := by
  rw [Language.mem_mul]
  constructor
  · rintro ⟨front, hfront, rest, hrest, rfl⟩
    rw [← Language.one_add_self_mul_kstar_eq_kstar] at hfront
    rcases hfront with rfl | ⟨_, ⟨name, -, _, ⟨_, rfl, rfl⟩, rfl⟩, more, -, rfl⟩
    · exact hrest
    · exact absurd (by simp) htext
  · intro htext
    exact ⟨[], Language.nil_mem_kstar _, text, htext, rfl⟩

/-- A pattern of brackets of which every class is closed where it ends matches the names that fit
it. -/
theorem accepts_brackets_iff (hslash : separator ∉ body)
    (hclasses : ∀ text ∈ classTexts ('[' :: (body ++ [']'])), Closes text)
    (hcompile : compile (classPattern body) = .ok g) (hname : separator ∉ name) :
    g.accepts (String.ofList name) isDir ↔ Fits ('[' :: (body ++ [']'])) name := by
  have hlayout := layout_classPattern hslash
  rw [accepts_iff_mem_language hcompile (by rw [hlayout]; simpa using hclasses), hlayout,
    Layout.language, String.toList_ofList]
  simp only [Bool.false_eq_true, false_implies, true_and, if_false]
  have hstars : '[' :: (body ++ [']']) ≠ ['*', '*'] := fun h => by simp at h
  rw [mem_directories_mul_iff_of_not_mem hname, pathLanguage, if_neg hstars, mem_fitting]

/-- The pattern of a class that is closed where it ends matches the characters of the class. -/
theorem accepts_classPattern_iff (hbody : IsClassText body) (hcloses : Closes body)
    (hslash : separator ∉ body) (hcompile : compile (classPattern body) = .ok g)
    (hname : separator ∉ name) :
    g.accepts (String.ofList name) isDir ↔ ∃ c, name = [c] ∧ Admits body c := by
  have hsplit := splitClass?_of_isClassText hbody []
  rw [accepts_brackets_iff hslash _ hcompile hname, fits_member_iff hsplit]
  · simp only [fits_nil_iff]
    constructor
    · rintro ⟨c, _, rfl, hc, rfl⟩
      exact ⟨c, rfl, hc⟩
    · rintro ⟨c, rfl, hc⟩
      exact ⟨c, [], rfl, hc, rfl⟩
  · rw [classTexts_class hsplit, classTexts]
    simpa using hcloses

theorem signs_classPattern (hbody : IsClassText body) (hslash : separator ∉ body) :
    (layout (classPattern body)).signs = directoriesSign :: classSigns body := by
  have hsplit := splitClass?_of_isClassText hbody []
  have hstars : '[' :: (body ++ [']']) ≠ ['*', '*'] := fun h => by simp at h
  have hsegment : segmentSigns ('[' :: (body ++ [']'])) = classSigns body := by
    rw [segmentSigns]
    split
    · next h => cases hsplit.symm.trans h
    · next h =>
      obtain ⟨rfl, rfl⟩ := Prod.mk.inj (Option.some.inj (hsplit.symm.trans h))
      rw [segmentSigns, List.append_nil]
  rw [layout_classPattern hslash, Layout.signs, if_neg Bool.false_ne_true, componentSigns,
    if_neg hstars, hsegment]

/-- What is read behind any directories. -/
theorem ofSigns_directoriesSign (signs : List Sign) :
    Expression.ofSigns (directoriesSign :: signs) =
      Progress.read ⟨[], (Level.fresh .plain .standard).extend [⟨.directories, false⟩], .none⟩
        signs :=
  Progress.read_part rfl _ _ signs

/-- A pattern of a class that can be read has a class that can be read. -/
theorem exists_class_of_compile (hbody : IsClassText body) (hcloses : Closes body)
    (hslash : separator ∉ body) (hcompile : compile (classPattern body) = .ok g) :
    ∃ k, CharClass.ofMarks? (classMarks body) = some (k, []) := by
  refine (unreadable_or_readable hbody hcloses).resolve_left fun hnone => ?_
  obtain ⟨e, he, -⟩ := compile_eq_ok_iff.mp hcompile
  have herror := read_classSigns_of_unreadable (l := (Level.fresh .plain .standard).extend
    [⟨.directories, false⟩]) hnone rfl []
  rw [signs_classPattern hbody hslash, ofSigns_directoriesSign] at he
  rw [List.append_nil] at herror
  exact nomatch he.symm.trans herror

/-- The pattern of a class that is closed before it ends matches one character and the text that
should have been listed, if none of it is an operator. -/
theorem accepts_classPattern_iff_of_not_closes (hbody : IsClassText body) (hcloses : ¬ Closes body)
    (hslash : separator ∉ body) (hoperators : ∀ c ∈ (listed body).tail, c ∉ Sign.operators)
    (hcompile : compile (classPattern body) = .ok g) (hname : separator ∉ name) :
    g.accepts (String.ofList name) isDir ↔
      ∃ c, c ≠ separator ∧ name = c :: ((listed body).tail ++ [']']) := by
  obtain ⟨e, he, rfl⟩ := compile_eq_ok_iff.mp hcompile
  rw [signs_classPattern hbody hslash, ofSigns_directoriesSign,
    read_classSigns_of_not_closes hcloses rfl, Level.extend_extend] at he
  -- None of the text behind the class is an operator, so it is read as it stands.
  have hmarks : ∀ m ∈ listing (listed body).tail ++ [.plain ']'],
      m.quoted ∨ m.char ∉ Sign.operators := by
    simp only [listing, List.mem_append, List.mem_map, List.mem_singleton]
    rintro _ (⟨c, hc, rfl⟩ | rfl)
    · exact .inr (hoperators c hc)
    · exact .inr (by decide)
  have htext : (listing (listed body).tail ++ [Mark.plain ']']).map Mark.char =
      (listed body).tail ++ [']'] := by
    simp [listing, Function.comp_def, Mark.plain]
  obtain ⟨parts, hparts, rfl⟩ := (Sign.mean_ofMarks hmarks).exists_parts rfl he
  rw [htext] at hparts
  have htakes := Expression.takes_directories.sequence_cons
    ((Expression.takes_one (.oneOf ⟨true, [(separator, separator)]⟩)).sequence_cons hparts)
  have hdirOnly : (layout (classPattern body)).dirOnly = false := by
    rw [layout_classPattern hslash]
  rw [Level.extend_extend, Level.content_extend_fresh, accepts, hdirOnly, Bool.not_false,
    Bool.true_or, Bool.true_and]
  refine htakes.describes_iff.trans ?_
  rw [String.toList_ofList, mem_directories_mul_iff_of_not_mem hname, mem_single_mul]
  simp only [Single.admits, CharClass.contains_separator_iff]
  constructor
  · rintro ⟨c, _, rfl, hc, rfl⟩
    exact ⟨c, hc, rfl⟩
  · rintro ⟨c, hc, rfl⟩
    exact ⟨c, _, rfl, hc, rfl⟩

/-! ### A class and its negation -/

/-- One pattern matches the single characters that another does not match, the separator apart, and
no other names. -/
structure Complements (n p : Glob) : Prop where
  single : ∀ c, c ≠ separator → ∀ isDir,
    (n.accepts (String.ofList [c]) isDir ↔ ¬ p.accepts (String.ofList [c]) isDir)
  other : ∀ name, separator ∉ name → name.length ≠ 1 → ∀ isDir,
    ¬ n.accepts (String.ofList name) isDir

variable {n p : Glob} {sign : Char}

theorem isNegated_cons (hsign : sign = '!' ∨ sign = '^') (text : List Char) :
    isNegated (sign :: text) := by
  rcases hsign with rfl | rfl <;> rfl

theorem separator_not_mem_cons (hsign : sign = '!' ∨ sign = '^') (htext : separator ∉ text) :
    separator ∉ sign :: text := by
  rw [List.mem_cons]
  refine not_or.mpr ⟨?_, htext⟩
  rcases hsign with rfl | rfl <;> decide

theorem listed_cons (hsign : sign = '!' ∨ sign = '^') (text : List Char) :
    listed (sign :: text) = text := listed_cons_of_isNegated (isNegated_cons hsign text)

theorem isClassText_cons (hsign : sign = '!' ∨ sign = '^') (hne : text ≠ [])
    (hclose : ']' ∉ text.tail) : IsClassText (sign :: text) := by
  rw [IsClassText, listed_cons hsign]
  exact ⟨hne, hclose⟩

theorem closes_cons_iff (hsign : sign = '!' ∨ sign = '^') :
    Closes (sign :: text) ↔ text.head? ≠ some ']' := by
  rw [Closes, listed_cons hsign]
  exact forall_prop_of_true (isNegated_cons hsign text)

/-- Between brackets alone there is no class, with a sign or without. -/
theorem not_complements_of_nil (hsign : sign = '!' ∨ sign = '^')
    (hcompile : compile (classPattern [sign]) = .ok n) : ¬ Complements n p := by
  intro h
  have hslash : separator ∉ ['[', sign, ']'] := by
    rcases hsign with rfl | rfl <;> decide
  have hopen : splitClass? [sign, ']'] = none := by
    rcases hsign with rfl | rfl <;> decide
  have hclasses : classTexts ('[' :: ([sign] ++ [']'])) = [] := by
    rw [List.singleton_append, classTexts_bracket hopen, classTexts_of_not_mem]
    rcases hsign with rfl | rfl <;> decide
  have hfits : Fits ('[' :: ([sign] ++ [']'])) ['[', sign, ']'] := by
    refine .bracket hopen (.same ?_ (.same (by decide) .nil))
    rcases hsign with rfl | rfl <;> decide
  -- The pattern matches its own three characters.
  refine h.other _ hslash (by simp) false ?_
  rw [accepts_brackets_iff (separator_not_mem_cons hsign List.not_mem_nil) _ hcompile hslash]
  · exact hfits
  · rw [hclasses]
    exact List.forall_mem_nil _

/-- A bracket that comes next to the sign closes the class, and what should have been listed is text
behind it. -/
theorem not_complements_of_bracket (hsign : sign = '!' ∨ sign = '^') (hslash : separator ∉ rest)
    (hclose : ']' ∉ rest) (hoperators : ∀ c ∈ rest, c ∉ Sign.operators)
    (hcompile : compile (classPattern (sign :: ']' :: rest)) = .ok n) : ¬ Complements n p := by
  intro h
  have hlisted := listed_cons hsign (']' :: rest)
  have hbody := isClassText_cons hsign (List.cons_ne_nil ']' rest) hclose
  have hcloses : ¬ Closes (sign :: ']' :: rest) := fun h => (closes_cons_iff hsign).mp h rfl
  have hslash' : separator ∉ sign :: ']' :: rest :=
    separator_not_mem_cons hsign (by simpa [separator] using hslash)
  have hname : separator ∉ 'a' :: (rest ++ [']']) := by simpa [separator] using hslash
  -- The pattern matches a character with that text behind it.
  refine h.other _ hname (by simp) false ?_
  rw [accepts_classPattern_iff_of_not_closes hbody hcloses hslash' (by rwa [hlisted]) hcompile
    hname, hlisted]
  exact ⟨'a', by decide, rfl⟩

/-! ### Classes that list no bracket -/

section Complement

variable (hsign : sign = '!' ∨ sign = '^') (hne : body ≠ []) (hclose : ']' ∉ body)
  (hslash : separator ∉ body) (hn : compile (classPattern (sign :: body)) = .ok n)

include hsign hne hclose

theorem isClassText_of_negated : IsClassText (sign :: body) :=
  isClassText_cons hsign hne fun h => hclose (List.mem_of_mem_tail h)

omit hne in
theorem closes_of_negated : Closes (sign :: body) :=
  (closes_cons_iff hsign).mpr fun h => hclose (List.mem_of_mem_head? h)

include hslash hn

theorem exists_class_of_negated :
    ∃ k, CharClass.ofMarks? (classMarks (sign :: body)) = some (k, []) :=
  exists_class_of_compile (isClassText_of_negated hsign hne hclose)
    (closes_of_negated hsign hclose) (separator_not_mem_cons hsign hslash) hn

theorem exists_members_of_negated : ∃ ranges, CharClass.members? []
    (listing (separator :: body) ++ [.plain ']']) = some (ranges, []) := by
  obtain ⟨k, hread⟩ := exists_class_of_negated hsign hne hclose hslash hn
  obtain ⟨ranges, hmembers, -⟩ := ofMarks?_classMarks_eq_some_iff.mp hread
  rw [written, if_pos (isNegated_cons hsign body), listed_cons hsign] at hmembers
  exact ⟨ranges, hmembers⟩

/-- A negated class matches the characters that are not listed behind the separator. -/
theorem accepts_negated_iff (hname : separator ∉ name) :
    n.accepts (String.ofList name) isDir ↔
      ∃ c, name = [c] ∧ ¬ Enlists [] (separator :: body) c := by
  obtain ⟨k, hread⟩ := exists_class_of_negated hsign hne hclose hslash hn
  rw [accepts_classPattern_iff (isClassText_of_negated hsign hne hclose)
    (closes_of_negated hsign hclose) (separator_not_mem_cons hsign hslash) hn hname]
  simp only [admits_iff_not_enlists (isNegated_cons hsign body) hread, listed_cons hsign]

/-- The negation of a class is its complement if the separator in front of the list changes no other
member. -/
theorem complements_iff_enlists (hunsigned : ¬ isNegated body)
    (hp : compile (classPattern body) = .ok p) :
    Complements n p ↔
      ∀ c, c ≠ separator → (Enlists [] (separator :: body) c ↔ Enlists [] body c) := by
  have hbody : IsClassText body := by
    rw [IsClassText, listed_of_not_isNegated hunsigned]
    exact ⟨hne, fun h => hclose (List.mem_of_mem_tail h)⟩
  have hnegated : ∀ {name}, separator ∉ name → ∀ isDir, (n.accepts (String.ofList name) isDir ↔
      ∃ c, name = [c] ∧ ¬ Enlists [] (separator :: body) c) :=
    fun hname _ => accepts_negated_iff hsign hne hclose hslash hn hname
  -- On one character, both patterns say only whether it is listed.
  have hsingle : ∀ c, c ≠ separator → ∀ isDir,
      ((n.accepts (String.ofList [c]) isDir ↔ ¬ p.accepts (String.ofList [c]) isDir) ↔
        (Enlists [] (separator :: body) c ↔ Enlists [] body c)) := by
    intro c hc isDir
    have hname : separator ∉ [c] := by simpa using hc.symm
    have hcloses : Closes body := fun h => absurd h hunsigned
    rw [hnegated hname, accepts_classPattern_iff hbody hcloses hslash hp hname]
    simp only [List.cons.injEq, and_true, exists_eq_left', admits_iff_enlists hunsigned,
      not_iff_not]
  constructor
  · intro h c hc
    exact (hsingle c hc false).mp (h.single c hc false)
  · intro h
    refine ⟨fun c hc isDir => (hsingle c hc isDir).mpr (h c hc), ?_⟩
    intro name hname hlength isDir haccepts
    obtain ⟨c, rfl, -⟩ := (hnegated hname isDir).mp haccepts
    exact hlength rfl

end Complement

/-! ### Complements -/

/-- A negated class is the complement of the class exactly if something stands between the brackets,
no bracket comes next to the sign, and the range that a hyphen makes next to the sign leads to no
other members. (Where a bracket comes next, what stands behind it should be no operator.) -/
theorem negated_complement_iff (hsign : sign = '!' ∨ sign = '^') (hunsigned : ¬ isNegated body)
    (hslash : separator ∉ body) (hclose : ']' ∉ body.tail)
    (hoperators : ∀ rest, body = ']' :: rest → ∀ c ∈ rest, c ∉ Sign.operators)
    (hp : compile (classPattern body) = .ok p)
    (hn : compile (classPattern (sign :: body)) = .ok n) :
    Complements n p ↔ body ≠ [] ∧ body.head? ≠ some ']' ∧
      ∀ d rest, body = '-' :: d :: rest → ∀ c, c ≠ separator →
        (Enlists [] body c ↔ Enlists [(separator, d)] rest c) := by
  cases body with
  | nil => exact iff_of_false (not_complements_of_nil hsign hn) fun h => h.1 rfl
  | cons first rest =>
    by_cases hfirst : first = ']'
    · subst hfirst
      refine iff_of_false ?_ fun h => h.2.1 rfl
      exact not_complements_of_bracket hsign (mt (List.mem_cons_of_mem _) hslash) hclose
        (hoperators rest rfl) hn
    · have hne := List.cons_ne_nil first rest
      have hclose' : ']' ∉ first :: rest := by
        rw [List.mem_cons]
        exact not_or.mpr ⟨Ne.symm hfirst, hclose⟩
      have hhead : (first :: rest).head? ≠ some ']' := by simpa using hfirst
      rw [complements_iff_enlists hsign hne hclose' hslash hn hunsigned hp]
      by_cases hhyphen : first = '-'
      · subst hhyphen
        cases rest with
        | nil =>
          -- The hyphen alone makes no range.
          refine iff_of_true (fun c hc => CharClass.enlists_separator_hyphen_iff hc) ?_
          exact ⟨hne, hhead, fun d rest h => by simp at h⟩
        | cons d rest =>
          -- The range begins with the separator, and what is listed behind it is the rest.
          obtain ⟨ranges, hread⟩ := exists_members_of_negated hsign hne hclose' hslash hn
          have hd : d ≠ ']' := fun h => hclose (h ▸ List.mem_cons_self)
          simp only [CharClass.enlists_separator_range_iff hd hread]
          constructor
          · intro h
            refine ⟨hne, hhead, ?_⟩
            rintro _ _ ⟨⟩ c hc
            exact (h c hc).symm
          · rintro ⟨-, -, h⟩ c hc
            exact (h d rest rfl c hc).symm
      · refine iff_of_true (fun c hc => CharClass.enlists_separator_cons_iff hfirst hhyphen hc) ?_
        exact ⟨hne, hhead, fun d more h => absurd (List.cons.inj h).1 hhyphen⟩

theorem negated_complement_iff_range : ∃ p n,
    compile (classPattern ['a', '-', 'c']) = .ok p ∧
      compile (classPattern ['!', 'a', '-', 'c']) = .ok n ∧ Complements n p := by
  have hclass := layout_classPattern (show separator ∉ ['a', '-', 'c'] by decide)
  have hnegated := layout_classPattern (show separator ∉ ['!', 'a', '-', 'c'] by decide)
  have hp := compile_of_parts (classPattern ['a', '-', 'c'])
    [(.one (.oneOf ⟨false, [('a', 'c')]⟩), .plain '[' :: classMarks ['a', '-', 'c'])]
    (by rw [hclass]; decide) (by rw [hclass]; simp only [List.map_cons, List.map_nil]; cbv)
  have hn := compile_of_parts (classPattern ['!', 'a', '-', 'c'])
    [(.one (.oneOf ⟨true, [('/', '/'), ('a', 'c')]⟩),
      .plain '[' :: classMarks ['!', 'a', '-', 'c'])]
    (by rw [hnegated]; decide) (by rw [hnegated]; simp only [List.map_cons, List.map_nil]; cbv)
  have hiff := negated_complement_iff (.inl rfl) (by decide) (by decide) (by decide)
    (fun rest h => by simp at h) hp hn
  exact ⟨_, _, hp, hn, hiff.mpr ⟨by decide, by decide, fun d rest h => by simp at h⟩⟩

/-- A class of which the negation makes a range of the hyphen, so that neither admits a digit, and
one of which the negation is closed early, so that it matches two characters. -/
theorem negated_not_complement :
    (∃ p n, compile "[-a]" = .ok p ∧ compile "[!-a]" = .ok n ∧
      ¬ p.accepts "0" false ∧ ¬ n.accepts "0" false) ∧
    ∃ p n, compile "[]]" = .ok p ∧ compile "[!]]" = .ok n ∧
      ¬ p.accepts "x" false ∧ ¬ n.accepts "x" false ∧ n.accepts "x]" false := by
  constructor
  · have hclass : layout "[-a]" = ⟨false, false, ["[-a]".toList]⟩ := by decide
    have hnegated : layout "[!-a]" = ⟨false, false, ["[!-a]".toList]⟩ := by decide
    have hp := compile_of_parts "[-a]"
      [(.one (.oneOf ⟨false, [('-', '-'), ('a', 'a')]⟩), .plain '[' :: classMarks ['-', 'a'])]
      (by rw [hclass]; decide) (by rw [hclass]; simp only [List.map_cons, List.map_nil]; cbv)
    have hn := compile_of_parts "[!-a]"
      [(.one (.oneOf ⟨true, [('/', 'a')]⟩), .plain '[' :: classMarks ['!', '-', 'a'])]
      (by rw [hnegated]; decide) (by rw [hnegated]; simp only [List.map_cons, List.map_nil]; cbv)
    exact ⟨_, _, hp, hn, by rw [hclass]; decide, by rw [hnegated]; decide⟩
  · have hclass : layout "[]]" = ⟨false, false, ["[]]".toList]⟩ := by decide
    have hnegated : layout "[!]]" = ⟨false, false, ["[!]]".toList]⟩ := by decide
    have hp := compile_of_parts "[]]"
      [(.one (.oneOf ⟨false, [(']', ']')]⟩), .plain '[' :: classMarks [']'])]
      (by rw [hclass]; decide) (by rw [hclass]; simp only [List.map_cons, List.map_nil]; cbv)
    have hsigns : (layout "[!]]").signs =
        directoriesSign :: Sign.ofMarks (Mark.plains ['[', '^', '/', ']', ']']) := by
      rw [hnegated]
      cbv
    obtain ⟨e, hread, hone, htwo⟩ : ∃ e, Expression.ofSigns (layout "[!]]").signs = .ok e ∧
        ¬ e.describes "x".toList ∧ e.describes "x]".toList := by
      rw [hsigns]
      exact ⟨_, by cbv, by decide, by decide⟩
    refine ⟨_, _, hp, compile_eq_ok_iff.mpr ⟨e, hread, rfl⟩, by rw [hclass]; decide, ?_, ?_⟩
    · rw [hnegated]
      exact hone
    · rw [hnegated]
      exact htwo

end Glob

end LinterSuite
