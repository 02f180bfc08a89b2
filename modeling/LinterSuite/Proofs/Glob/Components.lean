import LinterSuite.Glob.Matching
import LinterSuite.Proofs.Fallible
import LinterSuite.Proofs.Glob.Segments
import Mathlib.Data.List.DropRight

/-!
# Patterns component by component

A pattern describes a path component by component: two stars stand for directories, any other
component of the pattern for one component of the path. Written down, the components become one
expression with separators between them, which may take a path apart in other ways than at its
separators. It does not, as long as every class is closed where it ends and none admits a separator.

## Main definitions

* `Glob.Spans`: components of a path that components of a pattern describe
* `Glob.Layout`, `Glob.layout`: what a pattern says about the components of a path

## Main results

* `Glob.mem_pathLanguage_iff`: what the components describe are components of a path
* `Glob.accepts_iff_matches`: matching, said of components
* `Glob.accepts_iff_matches_of_no_brackets`: patterns without classes
-/

namespace LinterSuite.Glob

open scoped Computability

variable {segment cs : List Char} {segments parts : List (List Char)} {c : Char}

/-! ### All components of a pattern -/

/-- The texts that the components of a pattern describe: two stars are directories, at the end
everything. -/
def pathLanguage : List (List Char) → Language Char
  | [] => 1
  | [segment] => if segment = ['*', '*'] then ⊤ else fitting segment
  | segment :: segments =>
    if segment = ['*', '*'] then directory∗ * pathLanguage segments
    else fitting segment * (single (· = separator) * pathLanguage segments)

theorem mean_directoriesSign : Sign.Mean [directoriesSign] directory∗ :=
  Sign.mean_part Expression.takes_directories _

theorem mean_anythingSign : Sign.Mean [anythingSign] ⊤ :=
  Sign.mean_part Expression.takes_anything _

theorem pathLanguage_cons (hmore : segments ≠ []) :
    pathLanguage (segment :: segments) =
      if segment = ['*', '*'] then directory∗ * pathLanguage segments
      else fitting segment * (single (· = separator) * pathLanguage segments) := by
  obtain ⟨second, segments, rfl⟩ := List.exists_cons_of_ne_nil hmore
  rfl

theorem mean_componentSigns
    (hclasses : ∀ segment ∈ segments, ∀ body ∈ classTexts segment, Closes body) :
    Sign.Mean (componentSigns segments) (pathLanguage segments) := by
  fun_induction componentSigns segments with
  | case1 => exact Sign.mean_nil
  | case2 =>
    rw [pathLanguage, if_pos rfl]
    exact mean_anythingSign
  | case3 segment hsegment =>
    rw [pathLanguage, if_neg hsegment]
    exact mean_segmentSigns (hclasses segment List.mem_cons_self)
  | case4 segments hmore ih =>
    rw [pathLanguage_cons hmore, if_pos rfl]
    rw [List.forall_mem_cons] at hclasses
    exact mean_directoriesSign.cons (ih hclasses.2)
  | case5 segment segments hmore hsegment ih =>
    rw [pathLanguage_cons hmore, if_neg hsegment]
    rw [List.forall_mem_cons] at hclasses
    exact (mean_segmentSigns hclasses.1).append ((mean_charSign separator).cons (ih hclasses.2))

/-- The components of a path that components of a pattern describe, in order: two stars take any
number of them, at the end at least one, and any other component of the pattern takes one. -/
inductive Spans : List (List Char) → List (List Char) → Prop
  | nil : Spans [] []
  | all {parts : List (List Char)} (hparts : parts ≠ []) : Spans [['*', '*']] parts
  | skip {segments skipped parts : List (List Char)} (hmore : segments ≠ [])
    (hrest : Spans segments parts) : Spans (['*', '*'] :: segments) (skipped ++ parts)
  | one {segment part : List Char} {segments parts : List (List Char)}
    (hsegment : segment ≠ ['*', '*']) (hfits : Fits segment part) (hrest : Spans segments parts) :
    Spans (segment :: segments) (part :: parts)

theorem spans_nil_iff : Spans [] parts ↔ parts = [] := by
  constructor
  · intro h
    cases h
    rfl
  · rintro rfl
    exact .nil

theorem spans_all_iff : Spans [['*', '*']] parts ↔ parts ≠ [] := by
  constructor
  · intro h
    cases h with
    | all hparts => exact hparts
    | skip hmore _ => exact absurd rfl hmore
    | one hsegment _ _ => exact absurd rfl hsegment
  · exact .all

theorem spans_skip_iff (hmore : segments ≠ []) : Spans (['*', '*'] :: segments) parts ↔
    ∃ skipped rest, parts = skipped ++ rest ∧ Spans segments rest := by
  constructor
  · intro h
    cases h with
    | all _ => exact absurd rfl hmore
    | skip _ hrest => exact ⟨_, _, rfl, hrest⟩
    | one hsegment _ _ => exact absurd rfl hsegment
  · rintro ⟨skipped, rest, rfl, hrest⟩
    exact .skip hmore hrest

theorem spans_one_iff (hsegment : segment ≠ ['*', '*']) : Spans (segment :: segments) parts ↔
    ∃ part rest, parts = part :: rest ∧ Fits segment part ∧ Spans segments rest := by
  constructor
  · intro h
    cases h with
    | all _ => exact absurd rfl hsegment
    | skip _ _ => exact absurd rfl hsegment
    | one _ hfits hrest => exact ⟨_, _, rfl, hfits, hrest⟩
  · rintro ⟨part, rest, rfl, hfits, hrest⟩
    exact .one hsegment hfits hrest

theorem Spans.ne_nil (h : Spans segments parts) (hsegments : segments ≠ []) : parts ≠ [] := by
  induction h with
  | nil => exact absurd rfl hsegments
  | all hparts => exact hparts
  | skip hmore _ ih => exact List.append_ne_nil_of_right_ne_nil _ (ih hmore)
  | one => exact List.cons_ne_nil _ _

/-- The components of a path: names, none of them empty. -/
def AreNames (parts : List (List Char)) : Prop := ∀ part ∈ parts, part ∈ names

theorem AreNames.of_cons {part : List Char} (h : AreNames (part :: parts)) : AreNames parts :=
  (List.forall_mem_cons.mp h).2

theorem AreNames.of_append_right {skipped : List (List Char)} (h : AreNames (skipped ++ parts)) :
    AreNames parts :=
  fun part hpart => h part (List.mem_append_right _ hpart)

theorem AreNames.separator_not_mem (h : AreNames parts) : ∀ part ∈ parts, separator ∉ part :=
  fun part hpart => (h part hpart).2

theorem AreNames.intercalate_ne_nil (h : AreNames parts) (hne : parts ≠ []) :
    [separator].intercalate parts ≠ [] := by
  obtain ⟨part, rest, rfl⟩ := List.exists_cons_of_ne_nil hne
  obtain ⟨c, hc⟩ := List.exists_mem_of_ne_nil part (h part List.mem_cons_self).1
  exact List.ne_nil_of_mem (mem_intercalate_of_mem _ List.mem_cons_self hc)

/-- Behind a text without a separator, the separator is the first one of a path. -/
theorem mem_mul_separator_iff {K L : Language Char} (hK : ∀ text ∈ K, separator ∉ text)
    (hne : parts ≠ []) (hparts : AreNames parts) :
    [separator].intercalate parts ∈ K * (single (· = separator) * L) ↔
      ∃ part rest, parts = part :: rest ∧ part ∈ K ∧ rest ≠ [] ∧
        [separator].intercalate rest ∈ L := by
  rw [Language.mem_mul]
  simp only [mem_single_mul]
  constructor
  · rintro ⟨part, hpart, _, ⟨_, more, rfl, rfl, hmore⟩, h⟩
    obtain ⟨rest, rfl, hrest, rfl⟩ := (Text.intercalate_eq_append_cons_iff hne
      hparts.separator_not_mem (hK part hpart)).mp h.symm
    exact ⟨part, rest, rfl, hpart, hrest, hmore⟩
  · rintro ⟨part, rest, rfl, hpart, hrest, hmem⟩
    refine ⟨part, hpart, _, ⟨_, _, rfl, rfl, hmem⟩, ?_⟩
    exact ((Text.intercalate_eq_append_cons_iff hne hparts.separator_not_mem
      (hK part hpart)).mpr ⟨rest, rfl, hrest, rfl⟩).symm

/-- Directories in front of a path are some of its components. -/
theorem mem_directories_mul_iff {L : Language Char} (hne : parts ≠ []) (hparts : AreNames parts) :
    [separator].intercalate parts ∈ directory∗ * L ↔
      ∃ skipped rest, parts = skipped ++ rest ∧ rest ≠ [] ∧ [separator].intercalate rest ∈ L := by
  -- Either there are no directories, or the path begins with one and is a shorter path behind it.
  have hunfold : directory∗ * L = L + directory * (directory∗ * L) := by
    conv_lhs => rw [← Language.one_add_self_mul_kstar_eq_kstar, add_mul, one_mul, mul_assoc]
  induction parts with
  | nil => exact absurd rfl hne
  | cons name parts ih =>
    have ih := fun hne => ih hne hparts.of_cons
    rw [hunfold, Language.mem_add, directory, mul_assoc,
      mem_mul_separator_iff (fun name hname => hname.2) hne hparts]
    constructor
    · rintro (h | ⟨_, _, ⟨rfl, rfl⟩, -, hrest, h⟩)
      · exact ⟨[], name :: parts, rfl, hne, h⟩
      · obtain ⟨skipped, rest, rfl, hrest, h⟩ := (ih hrest).mp h
        exact ⟨name :: skipped, rest, rfl, hrest, h⟩
    · rintro ⟨skipped, rest, hsplit, hrest, h⟩
      cases skipped with
      | nil =>
        obtain rfl : name :: parts = rest := hsplit
        exact .inl h
      | cons first skipped =>
        obtain ⟨rfl, rfl⟩ := List.cons.inj hsplit
        have hne := List.append_ne_nil_of_right_ne_nil skipped hrest
        exact .inr ⟨_, _, rfl, hparts _ List.mem_cons_self, hne,
          (ih hne).mpr ⟨skipped, rest, rfl, hrest, h⟩⟩

/-- What the components of a pattern describe are components of a path. -/
theorem mem_pathLanguage_iff
    (hsegments : ∀ segment ∈ segments, separator ∉ segment ∧
      ∀ body ∈ classTexts segment, ¬ Admits body separator)
    (hne : segments ≠ []) (hparts : parts ≠ []) (hnames : AreNames parts) :
    [separator].intercalate parts ∈ pathLanguage segments ↔ Spans segments parts := by
  induction segments generalizing parts with
  | nil => exact absurd rfl hne
  | cons segment segments ih =>
    rw [List.forall_mem_cons] at hsegments
    have hwhole : ∀ text ∈ fitting segment, separator ∉ text :=
      fun _ => not_mem_of_fits hsegments.1.1 hsegments.1.2
    by_cases hmore : segments = []
    · -- The last component of the pattern describes all that is left of the path.
      subst hmore
      by_cases hstars : segment = ['*', '*']
      · rw [hstars, spans_all_iff]
        exact iff_of_true trivial hparts
      · rw [pathLanguage, if_neg hstars, mem_fitting, spans_one_iff hstars]
        constructor
        · intro hfits
          have hpieces := Text.pieces_of_not_mem (hwhole _ hfits)
          rw [Text.pieces_intercalate hparts hnames.separator_not_mem] at hpieces
          exact ⟨_, [], hpieces, hfits, .nil⟩
        · rintro ⟨part, rest, rfl, hfits, hrest⟩
          obtain rfl := spans_nil_iff.mp hrest
          rwa [List.intercalate_singleton]
    · rw [pathLanguage_cons hmore]
      by_cases hstars : segment = ['*', '*']
      · -- Two stars in front of others leave some of the path to them.
        rw [hstars, if_pos rfl, spans_skip_iff hmore, mem_directories_mul_iff hparts hnames]
        constructor
        · rintro ⟨skipped, rest, rfl, hrest, h⟩
          exact ⟨skipped, rest, rfl, (ih hsegments.2 hmore hrest hnames.of_append_right).mp h⟩
        · rintro ⟨skipped, rest, rfl, h⟩
          have hrest := h.ne_nil hmore
          exact ⟨skipped, rest, rfl, hrest,
            (ih hsegments.2 hmore hrest hnames.of_append_right).mpr h⟩
      · -- What fits the component holds no separator, so that it is the first part of the path.
        rw [if_neg hstars, spans_one_iff hstars, mem_mul_separator_iff hwhole hparts hnames]
        constructor
        · rintro ⟨part, rest, rfl, hfits, hrest, h⟩
          exact ⟨part, rest, rfl, hfits, (ih hsegments.2 hmore hrest hnames.of_cons).mp h⟩
        · rintro ⟨part, rest, rfl, hfits, h⟩
          have hrest := h.ne_nil hmore
          exact ⟨part, rest, rfl, hfits, hrest,
            (ih hsegments.2 hmore hrest hnames.of_cons).mpr h⟩

/-! ### What a pattern says about a path -/

/-- What a pattern says about the components of a path. -/
structure Layout where
  /-- The path is one of a directory. -/
  dirOnly : Bool
  /-- The components are all of the path, and not only the last ones. -/
  anchored : Bool
  components : List (List Char)
  deriving DecidableEq, Repr

/-- What a text says as a pattern: without blanks at its ends, the dot components in front and the
separators at both ends, it consists of components. A separator at the end asks for a directory, and
one in front of or between components anchors them. -/
def layout (source : String) : Layout :=
  let cleaned := dropDots (Text.stripChars source.toList)
  let body := cleaned.rdropWhile (· == separator)
  let relative := body.dropWhile (· == separator)
  { dirOnly := cleaned.getLast? == some separator
    anchored := body.contains separator
    components := if relative = [] then [] else splitComponents relative }

namespace Layout

/-- The pattern describes a path with these components, of a directory or of something else. -/
def Matches (l : Layout) (parts : List (List Char)) (isDir : Bool) : Prop :=
  (l.dirOnly → isDir) ∧ l.components ≠ [] ∧ ∃ skipped rest, parts = skipped ++ rest ∧
    (l.anchored → skipped = []) ∧ Spans l.components rest

/-- What the components write, with any directories in front if they are not anchored. -/
def signs (l : Layout) : List Sign :=
  if l.anchored then componentSigns l.components
  else directoriesSign :: componentSigns l.components

end Layout

theorem compile_eq (source : String) : compile source = do
    let expression ← Expression.ofSigns (layout source).signs
    return { source, expression, dirOnly := (layout source).dirOnly } := by
  have hcomponents : ∀ relative : List Char,
      (if relative.isEmpty then [] else componentSigns (splitComponents relative)) =
        componentSigns (if relative = [] then [] else splitComponents relative) := by
    intro relative
    cases relative <;> rfl
  simp only [compile, layout, Layout.signs, List.rdropWhile, hcomponents]
  rfl

variable {source path : String} {g : Glob} {isDir : Bool}

theorem compile_eq_ok_iff : compile source = .ok g ↔
    ∃ e, Expression.ofSigns (layout source).signs = .ok e ∧
      g = ⟨source, e, (layout source).dirOnly⟩ := by
  rw [compile_eq, Except.bind_eq_ok_iff]
  simp only [Except.pure_eq_ok_iff, eq_comm (a := g)]

/-- A pattern of finished parts that is not anchored describes any directories in front of what its
parts describe. -/
theorem compile_of_parts (source : String) (parts : List (Part × List Mark))
    (hanchored : ¬ (layout source).anchored)
    (h : componentSigns (layout source).components = parts.map fun p => .part p.1 p.2) :
    compile source = .ok ⟨source, .sequence (.directories :: parts.map (·.1.expression)),
      (layout source).dirOnly⟩ := by
  refine compile_eq_ok_iff.mpr ⟨_, ?_, rfl⟩
  rw [Layout.signs, if_neg hanchored, h, Expression.ofSigns, Progress.start, directoriesSign,
    Progress.read_part rfl, Progress.read_parts _ rfl]
  simp [Level.content, Level.last, Level.extend, Level.fresh, Function.comp_def]

theorem separator_not_mem_component (h : segment ∈ (layout source).components) :
    separator ∉ segment := by
  simp only [layout] at h
  split at h
  · exact absurd h List.not_mem_nil
  · exact Text.not_mem_of_mem_pieces h

theorem mem_of_mem_dropDots (h : c ∈ dropDots cs) : c ∈ cs := by
  fun_induction dropDots cs with
  | case1 cs ih => exact List.mem_cons_of_mem _ (List.mem_cons_of_mem _ (ih h))
  | case2 cs => exact h

/-- The components of a pattern hold no other characters than its text. -/
theorem mem_of_mem_component (h : segment ∈ (layout source).components) (hc : c ∈ segment) :
    c ∈ source.toList := by
  simp only [layout] at h
  split at h
  · exact absurd h List.not_mem_nil
  · have hrelative := Text.mem_of_mem_pieces h hc
    have hbody := (List.dropWhile_suffix _).subset hrelative
    have hcleaned := mem_of_mem_dropDots ((List.rdropWhile_prefix _ _).subset hbody)
    exact (List.dropWhile_suffix _).subset ((List.rdropWhile_prefix _ _).subset hcleaned)

/-- What is anchored has components. -/
theorem components_ne_nil (h : (layout source).anchored) : (layout source).components ≠ [] := by
  simp only [layout, List.contains_iff_mem] at h ⊢
  have hbody := List.ne_nil_of_mem h
  rw [if_neg, splitComponents]
  · exact Text.pieces_ne_nil _ _
  · -- What precedes the separators at the end does not end with one.
    intro hrelative
    have hlast := List.rdropWhile_last_not _ _ hbody
    exact hlast (List.dropWhile_eq_nil_iff.mp hrelative _ (List.getLast_mem hbody))

namespace Layout

variable {l : Layout}

/-- The texts that the components describe, with any directories in front if they are not
anchored. -/
def language (l : Layout) : Language Char :=
  if l.anchored then pathLanguage l.components else directory∗ * pathLanguage l.components

theorem mean_signs (hclasses : ∀ segment ∈ l.components, ∀ body ∈ classTexts segment, Closes body) :
    Sign.Mean l.signs l.language := by
  rw [signs, language]
  split
  · exact mean_componentSigns hclasses
  · exact mean_directoriesSign.cons (mean_componentSigns hclasses)

/-- The texts of a pattern are the paths of which it describes the components. -/
theorem mem_language_iff (hanchored : l.anchored → l.components ≠ [])
    (hseparate : ∀ segment ∈ l.components, separator ∉ segment ∧
      ∀ body ∈ classTexts segment, ¬ Admits body separator)
    (hparts : parts ≠ []) (hnames : AreNames parts) :
    [separator].intercalate parts ∈ l.language ↔ l.components ≠ [] ∧
      ∃ skipped rest, parts = skipped ++ rest ∧ (l.anchored → skipped = []) ∧
        Spans l.components rest := by
  rw [language]
  split
  · next h =>
    have hne := hanchored h
    rw [mem_pathLanguage_iff hseparate hne hparts hnames]
    constructor
    · intro hspans
      exact ⟨hne, [], parts, rfl, fun _ => rfl, hspans⟩
    · rintro ⟨-, skipped, rest, rfl, hskipped, hspans⟩
      rwa [hskipped h, List.nil_append]
  · next h =>
    rw [mem_directories_mul_iff hparts hnames]
    by_cases hne : l.components = []
    · -- Of a path, there is always a component left.
      rw [hne]
      refine iff_of_false ?_ fun h => h.1 rfl
      rintro ⟨skipped, rest, rfl, hrest, hnil⟩
      exact hnames.of_append_right.intercalate_ne_nil hrest ((Language.mem_one _).mp hnil)
    · constructor
      · rintro ⟨skipped, rest, rfl, hrest, hmem⟩
        exact ⟨hne, skipped, rest, rfl, fun h' => absurd h' h,
          (mem_pathLanguage_iff hseparate hne hrest hnames.of_append_right).mp hmem⟩
      · rintro ⟨-, skipped, rest, rfl, -, hspans⟩
        have hrest := hspans.ne_nil hne
        exact ⟨skipped, rest, rfl, hrest,
          (mem_pathLanguage_iff hseparate hne hrest hnames.of_append_right).mpr hspans⟩

end Layout

/-- A pattern of which every class is closed where it ends matches the texts of its language. -/
theorem accepts_iff_mem_language (hcompile : compile source = .ok g)
    (hclasses : ∀ segment ∈ (layout source).components, ∀ body ∈ classTexts segment, Closes body) :
    g.accepts path isDir ↔
      ((layout source).dirOnly → isDir) ∧ path.toList ∈ (layout source).language := by
  obtain ⟨e, he, rfl⟩ := compile_eq_ok_iff.mp hcompile
  have htakes := (Layout.mean_signs hclasses).takes he
  rw [accepts, Bool.and_eq_true, htakes.describes_iff]
  refine and_congr_left fun _ => ?_
  cases (layout source).dirOnly <;> simp

/-- A pattern of which every class is closed where it ends, and admits no separator, matches the
paths that its components describe. -/
theorem accepts_iff_matches (hcompile : compile source = .ok g)
    (hclasses : ∀ segment ∈ (layout source).components, ∀ body ∈ classTexts segment,
      Closes body ∧ ¬ Admits body separator)
    (hpath : ∀ part ∈ splitComponents path.toList, part ≠ []) :
    g.accepts path isDir ↔ (layout source).Matches (splitComponents path.toList) isDir := by
  have hseparate : ∀ segment ∈ (layout source).components, separator ∉ segment ∧
      ∀ body ∈ classTexts segment, ¬ Admits body separator := fun segment hsegment =>
    ⟨separator_not_mem_component hsegment, fun body hbody =>
      (hclasses segment hsegment body hbody).2⟩
  have hparts : splitComponents path.toList ≠ [] := Text.pieces_ne_nil _ _
  have hnames : AreNames (splitComponents path.toList) := fun part hpart =>
    ⟨hpath part hpart, Text.not_mem_of_mem_pieces hpart⟩
  have hjoined : [separator].intercalate (splitComponents path.toList) = path.toList :=
    Text.intercalate_pieces _ _
  rw [accepts_iff_mem_language hcompile fun segment hsegment body hbody =>
    (hclasses segment hsegment body hbody).1, ← hjoined,
    Layout.mem_language_iff components_ne_nil hseparate hparts hnames, Layout.Matches, hjoined]

/-! ### Patterns without classes -/

theorem finished_componentSigns (h : ∀ segment ∈ segments, '[' ∉ segment) :
    Sign.Finished (componentSigns segments) := by
  fun_induction componentSigns segments with
  | case1 => exact Sign.finished_nil
  | case2 => exact Sign.finished_nil.cons _ _
  | case3 segment _ => exact finished_segmentSigns (h segment List.mem_cons_self)
  | case4 segments _ ih => exact (ih (List.forall_mem_cons.mp h).2).cons _ _
  | case5 segment segments _ _ ih =>
    rw [List.forall_mem_cons] at h
    exact (finished_segmentSigns h.1).append ((ih h.2).cons _ _)

/-- A pattern without brackets can be read, and matches a path exactly if its components describe
those of the path. -/
theorem accepts_iff_matches_of_no_brackets (hbrackets : '[' ∉ source.toList) :
    ∃ g, compile source = .ok g ∧ ∀ (path : String) (isDir : Bool),
      (∀ part ∈ splitComponents path.toList, part ≠ []) →
        (g.accepts path isDir ↔
          (layout source).Matches (splitComponents path.toList) isDir) := by
  have hnone : ∀ segment ∈ (layout source).components, '[' ∉ segment :=
    fun segment hsegment hmem => hbrackets (mem_of_mem_component hsegment hmem)
  obtain ⟨e, he⟩ : ∃ e, Expression.ofSigns (layout source).signs = .ok e := by
    apply Sign.Finished.exists_ofSigns
    rw [Layout.signs]
    split
    · exact finished_componentSigns hnone
    · exact (finished_componentSigns hnone).cons _ _
  have hcompile := compile_eq_ok_iff.mpr ⟨e, he, rfl⟩
  refine ⟨_, hcompile, fun path isDir hpath => accepts_iff_matches hcompile ?_ hpath⟩
  intro segment hsegment body hbody
  -- Without brackets there are no classes of which anything could be asked.
  rw [classTexts_of_not_mem (hnone segment hsegment)] at hbody
  exact absurd hbody List.not_mem_nil

theorem accepts_iff_matches_below_source : '[' ∉ "src/**/*.p?".toList ∧
    ∃ g, compile "src/**/*.p?" = .ok g ∧ g.accepts "src/a/b.py" false ∧
      ¬ g.accepts "a/src/b.py" false := by
  have hbrackets : '[' ∉ "src/**/*.p?".toList := by decide
  obtain ⟨g, hcompile, hiff⟩ := accepts_iff_matches_of_no_brackets hbrackets
  have hlayout : layout "src/**/*.p?" =
      ⟨false, true, [['s', 'r', 'c'], ['*', '*'], ['*', '.', 'p', '?']]⟩ := by decide
  have hsrc : Fits ['s', 'r', 'c'] ['s', 'r', 'c'] :=
    .same (by decide) (.same (by decide) (.same (by decide) .nil))
  have hname : Fits ['*', '.', 'p', '?'] (['b'] ++ ['.', 'p', 'y']) :=
    .star (by decide) (.same (by decide) (.same (by decide)
      (.any (by decide) .nil)))
  have hstars : Spans [['*', '*'], ['*', '.', 'p', '?']] ([['a']] ++ [['b', '.', 'p', 'y']]) :=
    .skip (by decide) (.one (by decide) hname .nil)
  refine ⟨hbrackets, g, hcompile, (hiff _ _ (by decide)).mpr ?_, fun haccepts => ?_⟩
  · rw [hlayout]
    exact ⟨nofun, by decide, [], _, rfl, fun _ => rfl, .one (by decide) hsrc hstars⟩
  · -- The first component of the pattern is not the first one of the path.
    obtain ⟨-, -, skipped, rest, hparts, hskipped, hspans⟩ := (hiff _ _ (by decide)).mp haccepts
    rw [hlayout] at hskipped hspans
    obtain ⟨part, rest, rfl, hfits, -⟩ := (spans_one_iff (by decide)).mp hspans
    obtain ⟨_, rfl, -⟩ := (fits_same_iff (by decide)).mp hfits
    rw [hskipped rfl] at hparts
    exact absurd (List.cons.inj (List.cons.inj hparts).1).1 (by decide)

end LinterSuite.Glob
