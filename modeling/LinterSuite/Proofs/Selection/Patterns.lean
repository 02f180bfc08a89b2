import LinterSuite.Proofs.Run.Samples
import LinterSuite.Proofs.Selection.Pruning
import Mathlib.Data.List.Sort

/-!
# Patterns as sets

Which files are selected depends on two sets of patterns only, the included and the excluded ones:
not on the order of a list, on repetitions or blank texts in it, or on which of the two lists of
excludes a pattern stands in. More includes select the files that either of them select, and more
excludes leave the files that both of them leave, although excludes act twice: on files, and on
directories that are not entered.

## Main definitions

* `Glob.SamePatterns`: lists with the same patterns
* `FileTree.Offers`: a path of a file that patterns may select
* `FileTree.filesBy`: the files that some patterns select

## Main results

* `FileTree.mem_filesBy_iff`: what patterns have to do with a selected file
* `FileTree.filesBy_append_includes`, `FileTree.filesBy_append_excludes`: unions and intersections
* `FileTree.filesBy_congr`: the same patterns select the same files
* `FileTree.filesBy_exact`: all of this for the patterns of one selection
-/

namespace LinterSuite

/-! ### Lists of patterns -/

namespace Glob

variable {xs ys : List String} {path : String}

/-- Lists with the same patterns: in any order, with any repetitions, and with any blank texts in
between. -/
def SamePatterns (xs ys : List String) : Prop :=
  ∀ source, ¬ Text.isBlankText source → (source ∈ xs ↔ source ∈ ys)

theorem Readable.append (hxs : Readable xs) (hys : Readable ys) : Readable (xs ++ ys) :=
  List.forall_mem_append.mpr ⟨hxs, hys⟩

theorem anyCovers_append_iff :
    AnyCovers (xs ++ ys) path ↔ AnyCovers xs path ∨ AnyCovers ys path := by
  simp only [AnyCovers, List.mem_append, or_and_right, exists_or]

namespace SamePatterns

theorem symm (h : SamePatterns xs ys) : SamePatterns ys xs :=
  fun source hblank => (h source hblank).symm

theorem readable (h : SamePatterns xs ys) (hxs : Readable xs) : Readable ys :=
  fun source hmem hblank => hxs source ((h source hblank).mpr hmem) hblank

theorem anyCovers (h : SamePatterns xs ys) (hxs : AnyCovers xs path) : AnyCovers ys path := by
  obtain ⟨source, hmem, hblank, hcovers⟩ := hxs
  exact ⟨source, (h source hblank).mp hmem, hblank, hcovers⟩

theorem forall_blank (h : SamePatterns xs ys) (hxs : ∀ source ∈ xs, Text.isBlankText source) :
    ∀ source ∈ ys, Text.isBlankText source := by
  intro source hmem
  by_contra hblank
  exact hblank (hxs source ((h source hblank).mpr hmem))

end SamePatterns

end Glob

namespace FileTree

variable {t : FileTree} {skipped : List Path} {s : LinterSettings} {workDir base : Path}
  {includes includes' globalExcludes globalExcludes' excludes excludes' : List String}
  {files : List String}

/-! ### The files that patterns select -/

/-- A path below a base that leads to a file which patterns may select: no directory above it is
barred, whatever they say. -/
def Offers (t : FileTree) (skipped : List Path) (excludeSubmodules : Bool) (base : List String)
    (path : String) : Prop :=
  ∃ parts, path = relativeText parts ∧ parts ≠ [] ∧
    (∃ data, t.root.get? (base ++ parts) = some (.file data)) ∧
    ∀ dir, IsAbove dir parts → ¬ t.Bars skipped excludeSubmodules base dir

/-- The files that some patterns select, where all else is as in given settings. -/
def filesBy (t : FileTree) (skipped : List Path) (s : LinterSettings) (workDir : Path)
    (includes globalExcludes excludes : List String) : Except SelectionError (List String) :=
  (t.select skipped { s with includes, excludes } workDir globalExcludes).map (·.files)

/-- What patterns select of the files that are there: some of the includes cover it, unless there
are none, and none of the excludes does. -/
theorem selects_with_iff {parts : List String} :
    t.Selects skipped { s with includes, excludes } globalExcludes base.parts parts ↔
      (parts ≠ [] ∧ (∃ data, t.root.get? (base.parts ++ parts) = some (.file data)) ∧
        ∀ dir, IsAbove dir parts → ¬ t.Bars skipped s.excludeSubmodules base.parts dir) ∧
      ((∀ source ∈ includes, Text.isBlankText source) ∨
        Glob.AnyCovers includes (relativeText parts)) ∧
      ¬ Glob.AnyCovers (globalExcludes ++ excludes) (relativeText parts) :=
  ⟨fun ⟨hbelow, hfile, hunbarred, hincluded, hexcluded⟩ =>
    ⟨⟨hbelow, hfile, hunbarred⟩, hincluded, hexcluded⟩,
  fun ⟨⟨hbelow, hfile, hunbarred⟩, hincluded, hexcluded⟩ =>
    ⟨hbelow, hfile, hunbarred, hincluded, hexcluded⟩⟩

/-- Patterns that can be read select some files of a base that can be made absolute. -/
theorem exists_filesBy (hbase : t.realPath workDir = .ok base)
    (hincludes : Glob.Readable includes) (hexcludes : Glob.Readable (globalExcludes ++ excludes)) :
    ∃ files, t.filesBy skipped s workDir includes globalExcludes excludes = .ok files := by
  obtain ⟨gs, hgs⟩ := Glob.exists_compileAll hincludes
  obtain ⟨gs', hgs'⟩ := Glob.exists_compileAll hexcludes
  exact ⟨_, by simp only [filesBy, select, hgs, hgs', hbase, Except.mapError]; rfl⟩

/-- Patterns that can be read select nothing of a base that cannot be made absolute. -/
theorem filesBy_of_unreal {e : PathError} (hbase : t.realPath workDir = .error e)
    (hincludes : Glob.Readable includes) (hexcludes : Glob.Readable (globalExcludes ++ excludes)) :
    t.filesBy skipped s workDir includes globalExcludes excludes = .error (.badPath e) := by
  obtain ⟨gs, hgs⟩ := Glob.exists_compileAll hincludes
  obtain ⟨gs', hgs'⟩ := Glob.exists_compileAll hexcludes
  simp only [filesBy, select, hgs, hgs', hbase, Except.mapError]
  rfl

theorem pairwise_filesBy (hnamed : t.root.WellNamed)
    (h : t.filesBy skipped s workDir includes globalExcludes excludes = .ok files) :
    files.Pairwise (· < ·) := by
  obtain ⟨selection, hselect, rfl⟩ := Except.map_eq_ok_iff.mp h
  unfold select at hselect
  obtain ⟨gs, -, hselect⟩ := Except.bind_eq_ok_iff.mp hselect
  obtain ⟨gs', -, hselect⟩ := Except.bind_eq_ok_iff.mp hselect
  obtain ⟨base, -, hselect⟩ := Except.bind_eq_ok_iff.mp hselect
  obtain rfl := Except.ok.inj hselect
  refine pairwise_lt_sorted (List.Nodup.filter _ ?_)
  dsimp only
  split
  · next n hn => exact nodup_files_visits (hnamed.get? hn)
  · exact List.nodup_nil

/-- A file is selected if it is there, some of the includes cover it, unless there are none, and
none of the excludes does. -/
theorem mem_filesBy_iff (hnamed : t.root.WellNamed) (hbase : t.realPath workDir = .ok base)
    (h : t.filesBy skipped s workDir includes globalExcludes excludes = .ok files) {path : String} :
    path ∈ files ↔ t.Offers skipped s.excludeSubmodules base.parts path ∧
      ((∀ source ∈ includes, Text.isBlankText source) ∨ Glob.AnyCovers includes path) ∧
      ¬ Glob.AnyCovers (globalExcludes ++ excludes) path := by
  obtain ⟨selection, hselect, rfl⟩ := Except.map_eq_ok_iff.mp h
  unfold select at hselect
  rw [hbase] at hselect
  obtain ⟨gs, hgs, hselect⟩ := Except.bind_eq_ok_iff.mp hselect
  obtain ⟨gs', hgs', hselect⟩ := Except.bind_eq_ok_iff.mp hselect
  rw [Except.mapError_eq_ok_iff] at hgs hgs'
  obtain rfl := Except.ok.inj hselect
  cases hn : t.root.get? base.parts with
  | none =>
    -- Nothing is at the base, so nothing can be selected below it.
    simp only [Visit.files, List.filterMap_nil, List.filter_nil, Text.mem_sorted,
      List.not_mem_nil, false_iff]
    rintro ⟨⟨parts, -, -, ⟨data, hdata⟩, -⟩, -⟩
    rw [Node.get?_append, hn] at hdata
    exact nomatch hdata
  | some n =>
    simp only [Text.mem_sorted, List.mem_filter, Visit.files_eq_map, List.mem_map,
      Visit.mem_filterMap_file?, Bool.and_eq_true, Bool.or_eq_true, Bool.not_eq_true',
      ← Bool.not_eq_true]
    have hkept := fun parts =>
      (@kept_iff_selects t skipped _ _ _ _ _ hnamed hgs hgs' n hn parts).trans selects_with_iff
    constructor
    · rintro ⟨⟨parts, hvisit, rfl⟩, hcovers⟩
      obtain ⟨hthere, hcovers⟩ := (hkept parts).mp ⟨hvisit, hcovers⟩
      exact ⟨⟨parts, rfl, hthere⟩, hcovers⟩
    · rintro ⟨⟨parts, rfl, hthere⟩, hcovers⟩
      obtain ⟨hvisit, hcovers⟩ := (hkept parts).mpr ⟨hthere, hcovers⟩
      exact ⟨⟨parts, hvisit, rfl⟩, hcovers⟩

/-! ### Unions and intersections -/

/-- More includes select the files that either of them select. -/
theorem filesBy_append_includes (hnamed : t.root.WellNamed) (hincludes : Glob.Readable includes)
    (hincludes' : Glob.Readable includes') (hexcludes : Glob.Readable (globalExcludes ++ excludes))
    (hsome : ∃ source ∈ includes, ¬ Text.isBlankText source)
    (hsome' : ∃ source ∈ includes', ¬ Text.isBlankText source) :
    t.filesBy skipped s workDir (includes ++ includes') globalExcludes excludes = do
      let files ← t.filesBy skipped s workDir includes globalExcludes excludes
      let files' ← t.filesBy skipped s workDir includes' globalExcludes excludes
      return Text.sorted (files ∪ files') := by
  cases hbase : t.realPath workDir with
  | error e =>
    rw [filesBy_of_unreal hbase hincludes hexcludes, filesBy_of_unreal hbase
      (hincludes.append hincludes') hexcludes]
    rfl
  | ok base =>
    obtain ⟨files, hfiles⟩ := exists_filesBy hbase hincludes hexcludes
    obtain ⟨files', hfiles'⟩ := exists_filesBy hbase hincludes' hexcludes
    obtain ⟨both, hboth⟩ := exists_filesBy hbase (hincludes.append hincludes') hexcludes
    rw [hfiles, hfiles', hboth]
    refine congrArg Except.ok ?_
    have hunion : (Text.sorted (files ∪ files')).Pairwise (· < ·) :=
      pairwise_lt_sorted ((pairwise_filesBy hnamed hfiles').nodup.union files)
    refine (pairwise_filesBy hnamed hboth).eq_of_mem_iff hunion fun path => ?_
    -- With an include that says something in each list, the three cases of no includes are out.
    have hnone : ¬ ∀ source ∈ includes, Text.isBlankText source := by simpa using hsome
    have hnone' : ¬ ∀ source ∈ includes', Text.isBlankText source := by simpa using hsome'
    have hneither : ¬ ∀ source ∈ includes ++ includes', Text.isBlankText source := fun h =>
      hnone (List.forall_mem_append.mp h).1
    rw [Text.mem_sorted, List.mem_union_iff, mem_filesBy_iff hnamed hbase hboth,
      mem_filesBy_iff hnamed hbase hfiles, mem_filesBy_iff hnamed hbase hfiles',
      Glob.anyCovers_append_iff]
    simp only [hnone, hnone', hneither, false_or, ← and_or_left, ← or_and_right]

/-- More excludes leave the files that both of them leave. -/
theorem filesBy_append_excludes (hnamed : t.root.WellNamed) (hincludes : Glob.Readable includes)
    (hexcludes : Glob.Readable (globalExcludes ++ excludes))
    (hexcludes' : Glob.Readable (globalExcludes ++ excludes')) :
    t.filesBy skipped s workDir includes globalExcludes (excludes ++ excludes') = do
      let files ← t.filesBy skipped s workDir includes globalExcludes excludes
      let files' ← t.filesBy skipped s workDir includes globalExcludes excludes'
      return files ∩ files' := by
  have happend : Glob.Readable (globalExcludes ++ (excludes ++ excludes')) := by
    rw [← List.append_assoc]
    exact hexcludes.append (List.forall_mem_append.mp hexcludes').2
  cases hbase : t.realPath workDir with
  | error e =>
    rw [filesBy_of_unreal hbase hincludes hexcludes, filesBy_of_unreal hbase hincludes happend]
    rfl
  | ok base =>
    obtain ⟨files, hfiles⟩ := exists_filesBy hbase hincludes hexcludes
    obtain ⟨files', hfiles'⟩ := exists_filesBy hbase hincludes hexcludes'
    obtain ⟨both, hboth⟩ := exists_filesBy hbase hincludes happend
    rw [hfiles, hfiles', hboth]
    refine congrArg Except.ok ?_
    -- Both sides are in strict order, so they are the same if they have the same members.
    have hinter : (files ∩ files').Pairwise (· < ·) := (pairwise_filesBy hnamed hfiles).filter _
    refine (pairwise_filesBy hnamed hboth).eq_of_mem_iff hinter fun path => ?_
    rw [List.mem_inter_iff, mem_filesBy_iff hnamed hbase hboth,
      mem_filesBy_iff hnamed hbase hfiles, mem_filesBy_iff hnamed hbase hfiles']
    simp only [Glob.anyCovers_append_iff, not_or]
    constructor
    · rintro ⟨hoffers, hincluded, hglobal, hown, hown'⟩
      exact ⟨⟨hoffers, hincluded, hglobal, hown⟩, hoffers, hincluded, hglobal, hown'⟩
    · rintro ⟨⟨hoffers, hincluded, hglobal, hown⟩, -, -, -, hown'⟩
      exact ⟨hoffers, hincluded, hglobal, hown, hown'⟩

/-- The same patterns select the same files. -/
theorem filesBy_congr (hnamed : t.root.WellNamed) (hincludes : Glob.Readable includes)
    (hexcludes : Glob.Readable (globalExcludes ++ excludes))
    (hsame : Glob.SamePatterns includes includes')
    (hsame' : Glob.SamePatterns (globalExcludes ++ excludes) (globalExcludes' ++ excludes')) :
    t.filesBy skipped s workDir includes' globalExcludes' excludes' =
      t.filesBy skipped s workDir includes globalExcludes excludes := by
  have hincludes' := hsame.readable hincludes
  have hexcludes' := hsame'.readable hexcludes
  cases hbase : t.realPath workDir with
  | error e =>
    rw [filesBy_of_unreal hbase hincludes hexcludes, filesBy_of_unreal hbase hincludes' hexcludes']
  | ok base =>
    obtain ⟨files, hfiles⟩ := exists_filesBy hbase hincludes hexcludes
    obtain ⟨files', hfiles'⟩ := exists_filesBy hbase hincludes' hexcludes'
    rw [hfiles, hfiles']
    refine congrArg Except.ok ?_
    refine (pairwise_filesBy hnamed hfiles').eq_of_mem_iff (pairwise_filesBy hnamed hfiles) ?_
    intro path
    rw [mem_filesBy_iff hnamed hbase hfiles, mem_filesBy_iff hnamed hbase hfiles']
    -- The files that are offered do not depend on patterns.
    refine and_congr_right fun _ => and_congr (or_congr ?_ ?_) (not_congr ?_)
    · exact ⟨hsame.symm.forall_blank, hsame.forall_blank⟩
    · exact ⟨hsame.symm.anyCovers, hsame.anyCovers⟩
    · exact ⟨hsame'.symm.anyCovers, hsame'.anyCovers⟩

/-- Selecting is set arithmetic on patterns. More includes select the sorted union of what either
of them select, if both hold patterns at all; more excludes leave the intersection. What is selected
does not change with the order, the repetition or the list of a pattern, or with blank texts. There
is a selection whenever the base can be made absolute. -/
theorem filesBy_exact (hnamed : t.root.WellNamed) (hincludes : Glob.Readable includes)
    (hincludes' : Glob.Readable includes') (hexcludes : Glob.Readable (globalExcludes ++ excludes))
    (hexcludes' : Glob.Readable (globalExcludes ++ excludes')) :
    ((∃ source ∈ includes, ¬ Text.isBlankText source) →
      (∃ source ∈ includes', ¬ Text.isBlankText source) →
      t.filesBy skipped s workDir (includes ++ includes') globalExcludes excludes = do
        let files ← t.filesBy skipped s workDir includes globalExcludes excludes
        let files' ← t.filesBy skipped s workDir includes' globalExcludes excludes
        return Text.sorted (files ∪ files')) ∧
    (t.filesBy skipped s workDir includes globalExcludes (excludes ++ excludes') = do
      let files ← t.filesBy skipped s workDir includes globalExcludes excludes
      let files' ← t.filesBy skipped s workDir includes globalExcludes excludes'
      return files ∩ files') ∧
    (∀ sources globalSources ownSources, Glob.SamePatterns includes sources →
      Glob.SamePatterns (globalExcludes ++ excludes) (globalSources ++ ownSources) →
      t.filesBy skipped s workDir sources globalSources ownSources =
        t.filesBy skipped s workDir includes globalExcludes excludes) ∧
    ((∃ files, t.filesBy skipped s workDir includes globalExcludes excludes = .ok files) ↔
      ∃ base, t.realPath workDir = .ok base) := by
  refine ⟨filesBy_append_includes hnamed hincludes hincludes' hexcludes,
    filesBy_append_excludes hnamed hincludes hexcludes hexcludes',
    fun _ _ _ => filesBy_congr hnamed hincludes hexcludes, ?_, ?_⟩
  · rintro ⟨files, hfiles⟩
    cases hbase : t.realPath workDir with
    | ok base => exact ⟨base, rfl⟩
    | error e =>
      rw [filesBy_of_unreal hbase hincludes hexcludes] at hfiles
      exact nomatch hfiles
  · rintro ⟨base, hbase⟩
    exact exists_filesBy hbase hincludes hexcludes

/-- A directory with a Python file, a text, and one more Python file in a directory that is
excluded. The excludes are swapped between the two lists, and blank texts and a repetition are put
in. -/
theorem filesBy_exact_two_kinds :
    ∃ (t : FileTree) (s : LinterSettings), t.root.WellNamed ∧ Glob.Readable ["*.py"] ∧
      Glob.Readable ["*.txt"] ∧ Glob.Readable (["vendor"] ++ ["build/"]) ∧
      Glob.Readable (["vendor"] ++ ["b*"]) ∧
      (t.filesBy [] s ⟨.root, []⟩ (["*.py"] ++ ["*.txt"]) ["vendor"] ["build/"] = do
        let files ← t.filesBy [] s ⟨.root, []⟩ ["*.py"] ["vendor"] ["build/"]
        let files' ← t.filesBy [] s ⟨.root, []⟩ ["*.txt"] ["vendor"] ["build/"]
        return Text.sorted (files ∪ files')) ∧
      (t.filesBy [] s ⟨.root, []⟩ ["*.py"] ["vendor"] (["build/"] ++ ["b*"]) = do
        let files ← t.filesBy [] s ⟨.root, []⟩ ["*.py"] ["vendor"] ["build/"]
        let files' ← t.filesBy [] s ⟨.root, []⟩ ["*.py"] ["vendor"] ["b*"]
        return files ∩ files') ∧
      t.filesBy [] s ⟨.root, []⟩ [" ", "*.py", "*.py"] ["build/", ""] ["vendor"] =
        t.filesBy [] s ⟨.root, []⟩ ["*.py"] ["vendor"] ["build/"] ∧
      ∃ files, t.filesBy [] s ⟨.root, []⟩ ["*.py"] ["vendor"] ["build/"] = .ok files := by
  let data : FileData := { content := [], mtime := 1, executable := false }
  let build : Node := .dir 0 [("c.py", .file data)]
  let t : FileTree :=
    { root := .dir 0 [("b.txt", .file data), ("a.py", .file data), ("build", build)]
      cwd := [], clock := 2 }
  have hroot : t.root.WellNamed := by
    refine .dir (by decide) ?_ ?_
    · simp only [List.forall_mem_cons]
      refine ⟨?_, ?_, ?_, nofun⟩ <;> constructor <;> decide
    · have hbuild : build.WellNamed := by
        refine .dir (by decide) ?_ (by simpa using .file data)
        simp only [List.forall_mem_cons]
        exact ⟨by constructor <;> decide, nofun⟩
      simpa using ⟨.file data, hbuild⟩
  let sources := ["*.py", "*.txt", "vendor", "build/", "b*"]
  have hcompile : ∀ source ∈ sources, (Glob.compile source).isOk := by decide +kernel
  have hreadable : ∀ chosen, chosen ⊆ sources → Glob.Readable chosen := by
    intro chosen hchosen source hmem _
    have hok := hcompile source (hchosen hmem)
    cases hg : Glob.compile source with
    | error e => simp [hg, Except.isOk, Except.toBool] at hok
    | ok g => exact ⟨g, rfl⟩
  have hpython := hreadable ["*.py"] (by decide)
  have htext := hreadable ["*.txt"] (by decide)
  have hbuild := hreadable (["vendor"] ++ ["build/"]) (by decide)
  have hletter := hreadable (["vendor"] ++ ["b*"]) (by decide)
  obtain ⟨hunion, hinter, hsame, hfiles⟩ := @filesBy_exact t [] (Sample.linter "lint" "lint")
    ⟨.root, []⟩ _ _ _ _ _ hroot hpython htext hbuild hletter
  refine ⟨t, Sample.linter "lint" "lint", hroot, hpython, htext, hbuild, hletter,
    hunion (by decide) (by decide), hinter, hsame _ _ _ ?_ ?_,
    hfiles.mpr ⟨_, realPath_of_isDir hroot rfl⟩⟩
  · intro source hblank
    have hspace : source ≠ " " := by rintro rfl; exact hblank rfl
    simp [hspace]
  · intro source hblank
    have hempty : source ≠ "" := by rintro rfl; exact hblank rfl
    simp [hempty, or_comm]

end FileTree

end LinterSuite
