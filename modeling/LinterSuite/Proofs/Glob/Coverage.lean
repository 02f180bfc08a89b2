import LinterSuite.Proofs.Fallible
import LinterSuite.Proofs.Text.Separators
import LinterSuite.Selection

/-!
# Which paths patterns cover

A pattern covers a path if it matches the path or a directory above it. Said of the components of a
path, the directories above it are its proper beginnings. Blank patterns and repetitions of a
pattern cover nothing of their own.

## Main definitions

* `IsAbove`: a directory strictly between a base and a path below it
* `Glob.AnyCovers`: some pattern of a list covers a path

## Main results

* `splitComponents_relativeText`: the components of a path are what its text falls into
* `Glob.covers_relativeText_iff`: covering, said of components
* `Glob.anyCovers_compileAll_iff`: compiling a list of patterns keeps what they cover
-/

namespace LinterSuite

/-! ### Paths and their components -/

theorem toList_relativeText (parts : List String) :
    (relativeText parts).toList = ['/'].intercalate (parts.map String.toList) :=
  String.toList_intercalate

/-- The components of a path are what its text falls into. -/
theorem splitComponents_relativeText {parts : List String} (hne : parts ≠ [])
    (hnames : ∀ name ∈ parts, '/' ∉ name.toList) :
    Glob.splitComponents (relativeText parts).toList = parts.map String.toList := by
  rw [Glob.splitComponents, toList_relativeText]
  exact Text.pieces_intercalate (by simpa using hne) (by simpa [separator] using hnames)

theorem relativeText_inj {xs ys : List String} (hx : xs ≠ []) (hy : ys ≠ [])
    (hxs : ∀ name ∈ xs, '/' ∉ name.toList) (hys : ∀ name ∈ ys, '/' ∉ name.toList)
    (h : relativeText xs = relativeText ys) : xs = ys := by
  have hparts := splitComponents_relativeText hx hxs
  rw [h, splitComponents_relativeText hy hys] at hparts
  exact List.map_injective_iff.mpr (fun _ _ => String.toList_injective) hparts.symm

/-- A directory strictly between a base and a path below it. -/
def IsAbove (dir parts : List String) : Prop := dir ≠ [] ∧ ∃ rest, rest ≠ [] ∧ dir ++ rest = parts

theorem isAbove_cons_iff {dir rest : List String} {name : String} :
    IsAbove dir (name :: rest) ↔
      rest ≠ [] ∧ (dir = [name] ∨ ∃ dir', dir = name :: dir' ∧ IsAbove dir' rest) := by
  constructor
  · rintro ⟨hne, below, hbelow, h⟩
    obtain ⟨first, dir', rfl⟩ := List.exists_cons_of_ne_nil hne
    obtain ⟨rfl, rfl⟩ : first = name ∧ dir' ++ below = rest := by simpa using h
    refine ⟨List.append_ne_nil_of_right_ne_nil dir' hbelow, ?_⟩
    cases dir' with
    | nil => exact .inl rfl
    | cons second dir' => exact .inr ⟨_, rfl, by simp, below, hbelow, rfl⟩
  · rintro ⟨hrest, rfl | ⟨dir', rfl, -, below, hbelow, rfl⟩⟩
    · exact ⟨by simp, rest, hrest, rfl⟩
    · exact ⟨by simp, below, hbelow, rfl⟩

/-- The directories above a path are its proper beginnings, counted by their components. -/
theorem isAbove_iff_exists_take {dir parts : List String} :
    IsAbove dir parts ↔ ∃ n, n + 1 < parts.length ∧ dir = parts.take (n + 1) := by
  constructor
  · rintro ⟨hne, rest, hrest, rfl⟩
    obtain ⟨first, dir, rfl⟩ := List.exists_cons_of_ne_nil hne
    have := List.length_pos_iff.mpr hrest
    exact ⟨dir.length, by simp; omega, by simp⟩
  · rintro ⟨n, hn, rfl⟩
    have hdrop : parts.drop (n + 1) ≠ [] := by simpa using hn
    have hparts : parts ≠ [] := by rintro rfl; simp at hn
    exact ⟨by simpa using hparts, _, hdrop, List.take_append_drop _ _⟩

namespace Glob

theorem ancestry_relativeText {parts : List String} (hne : parts ≠ [])
    (hnames : ∀ name ∈ parts, '/' ∉ name.toList) :
    ancestry (relativeText parts) =
      (List.range parts.length).reverse.map fun n => relativeText (parts.take (n + 1)) := by
  simp only [ancestry, splitComponents_relativeText hne hnames, List.length_map, ← List.map_take,
    ← toList_relativeText, String.ofList_toList]

/-- A pattern covers a path if it matches the path or a directory above it. -/
theorem covers_relativeText_iff {g : Glob} {parts : List String} (hne : parts ≠ [])
    (hnames : ∀ name ∈ parts, '/' ∉ name.toList) :
    g.covers (relativeText parts) ↔
      g.accepts (relativeText parts) false ∨
        ∃ dir, IsAbove dir parts ∧ g.accepts (relativeText dir) true := by
  have hpos := List.length_pos_iff.mpr hne
  obtain ⟨n, hn⟩ : ∃ n, parts.length = n + 1 := ⟨parts.length - 1, by omega⟩
  have hself : parts.take (n + 1) = parts := List.take_of_length_le (Nat.le_of_eq hn)
  -- The path itself is the first of its beginnings; the others are the directories above it.
  rw [covers, ancestry_relativeText hne hnames, hn, List.range_succ, List.reverse_append,
    List.reverse_singleton, List.singleton_append, List.map_cons, hself]
  simp only [Bool.or_eq_true, List.any_map, List.any_eq_true, List.mem_reverse, List.mem_range,
    Function.comp]
  refine or_congr_right ⟨?_, ?_⟩
  · rintro ⟨k, hk, haccepts⟩
    exact ⟨_, isAbove_iff_exists_take.mpr ⟨k, by omega, rfl⟩, haccepts⟩
  · rintro ⟨dir, habove, haccepts⟩
    obtain ⟨k, hk, rfl⟩ := isAbove_iff_exists_take.mp habove
    exact ⟨k, by omega, haccepts⟩

/-! ### Lists of patterns -/

/-- Some pattern of a list that is not blank covers a path. -/
def AnyCovers (sources : List String) (path : String) : Prop :=
  ∃ source ∈ sources, ¬ Text.isBlankText source ∧ ∃ g, compile source = .ok g ∧ g.covers path

/-- Every pattern of a list that is not blank can be read. -/
def Readable (sources : List String) : Prop :=
  ∀ source ∈ sources, ¬ Text.isBlankText source → ∃ g, compile source = .ok g

theorem mem_firstOccurrences {source : String} {sources : List String} :
    source ∈ firstOccurrences sources ↔ source ∈ sources := by
  induction sources with
  | nil => simp [firstOccurrences]
  | cons first sources ih =>
    by_cases h : source = first <;> simp [firstOccurrences, ih, h]

theorem mem_usable {source : String} {sources : List String} :
    source ∈ usable sources ↔ source ∈ sources ∧ ¬ Text.isBlankText source := by
  simp [usable, mem_firstOccurrences]

theorem exists_compileAll {sources : List String} (h : Readable sources) :
    ∃ gs, compileAll sources = .ok gs :=
  Except.exists_mapM_eq_ok fun source hsource =>
    h source (mem_usable.mp hsource).1 (mem_usable.mp hsource).2

/-- A blank text is a pattern, though a list of patterns passes it over. -/
theorem exists_compile_of_isBlankText {source : String} (h : Text.isBlankText source) :
    ∃ g, compile source = .ok g := by
  have hstrip : Text.stripChars source.toList = [] := Text.stripChars_eq_nil_iff.mpr h
  obtain ⟨e, he⟩ : ∃ e, Expression.ofSigns [directoriesSign] = .ok e := ⟨_, by cbv⟩
  refine ⟨⟨source, e, false⟩, ?_⟩
  simp [compile, hstrip, dropDots, he, bind, Except.bind, pure, Except.pure]

/-- A list of patterns is compiled only if every one of them can be read. -/
theorem exists_compile_of_mem {source : String} {sources : List String} {gs : List Glob}
    (h : compileAll sources = .ok gs) (hmem : source ∈ sources) : ∃ g, compile source = .ok g := by
  by_cases hblank : Text.isBlankText source
  · exact exists_compile_of_isBlankText hblank
  · obtain ⟨g, -, hcompile⟩ := Except.exists_mem_of_mapM h (mem_usable.mpr ⟨hmem, hblank⟩)
    exact ⟨g, hcompile⟩

/-- Compiling a list of patterns keeps what they cover. -/
theorem anyCovers_compileAll_iff {sources : List String} {gs : List Glob}
    (h : compileAll sources = .ok gs) {path : String} :
    anyCovers gs path ↔ AnyCovers sources path := by
  simp only [anyCovers, List.any_eq_true]
  constructor
  · rintro ⟨g, hg, hcovers⟩
    obtain ⟨source, hsource, hcompile⟩ := Except.exists_of_mem_mapM h hg
    obtain ⟨hmem, hblank⟩ := mem_usable.mp hsource
    exact ⟨source, hmem, hblank, g, hcompile, hcovers⟩
  · rintro ⟨source, hmem, hblank, g, hcompile, hcovers⟩
    obtain ⟨g', hg', hcompile'⟩ := Except.exists_mem_of_mapM h (mem_usable.mpr ⟨hmem, hblank⟩)
    obtain rfl := Except.ok.inj (hcompile.symm.trans hcompile')
    exact ⟨g, hg', hcovers⟩

theorem isEmpty_compileAll_iff {sources : List String} {gs : List Glob}
    (h : compileAll sources = .ok gs) :
    gs.isEmpty ↔ ∀ source ∈ sources, Text.isBlankText source := by
  have hlength := (Except.mapM_eq_ok_iff.mp h).length_eq
  have hempty : gs = [] ↔ usable sources = [] := by
    rw [← List.length_eq_zero_iff, ← hlength, List.length_eq_zero_iff]
  rw [List.isEmpty_iff, hempty, List.eq_nil_iff_forall_not_mem]
  refine forall_congr' fun source => ?_
  rw [mem_usable]
  exact not_and_not_right

end Glob

end LinterSuite
