import LinterSuite.Proofs.FileTree.Names
import LinterSuite.Proofs.Glob.Coverage
import Mathlib.Data.List.Nodup

/-!
# Pruning loses nothing

A selection is made by a walk that does not enter a directory which an exclude pattern describes.
Here it is compared with the plain definition, which walks nowhere: a file is selected if no
directory above it is barred, some include pattern covers it or there is none, and no exclude
pattern covers it. The two agree because a pattern that describes a directory covers every path
below it.

## Main definitions

* `FileTree.Bars`: a directory that no selection looks into, whatever the patterns say
* `FileTree.Selects`: the plain definition of a selected file

## Main results

* `Walk.file_mem_visits_iff`: a walk meets the files above which it enters every directory
* `FileTree.select_exact`: a selection is the sorted list of what the plain definition selects
-/

namespace LinterSuite

/-! ### What a walk meets -/

namespace Walk

variable {w : Walk}

/-- The walk looks into a directory. -/
def enters (w : Walk) (dir : List String) : Bool :=
  !w.isSkipped dir && !w.isNested dir && !w.isExcluded dir

/-- What the walk meets at one named place. -/
def visitsAt (w : Walk) (relative : List String) (e : String × Node) : List Visit :=
  w.visits relative [e]

theorem visits_eq_flatMap (w : Walk) (relative : List String) (es : List (String × Node)) :
    w.visits relative es = es.flatMap (w.visitsAt relative) := by
  induction es with
  | nil => simp [visits]
  | cons e es ih =>
    rw [List.flatMap_cons, ← ih]
    obtain ⟨name, _ | _ | _⟩ := e <;> simp [visitsAt, visits]

theorem file_mem_visitsAt_file {relative path : List String} {name : String} {data : FileData} :
    .file path ∈ w.visitsAt relative (name, .file data) ↔ path = relative ++ [name] := by
  simp [visitsAt, visits]

theorem not_mem_visitsAt_link {relative : List String} {name target : String} {v : Visit} :
    v ∉ w.visitsAt relative (name, .link target) := by
  simp [visitsAt, visits]

theorem file_mem_visitsAt_dir {relative path : List String} {name : String} {mtime : Int}
    {es : List (String × Node)} :
    .file path ∈ w.visitsAt relative (name, .dir mtime es) ↔
      w.enters (relative ++ [name]) ∧ .file path ∈ w.visits (relative ++ [name]) es := by
  simp only [visitsAt, visits, enters, List.append_nil]
  cases w.isSkipped (relative ++ [name]) <;> cases w.isNested (relative ++ [name]) <;>
    cases w.isExcluded (relative ++ [name]) <;> simp

/-- The walk meets the files above which it enters every directory. -/
theorem file_mem_visits_iff {n : Node} (hn : n.WellNamed) {relative path : List String} :
    .file path ∈ w.visits relative n.entries ↔
      ∃ below, path = relative ++ below ∧ below ≠ [] ∧ (∃ data, n.get? below = some (.file data)) ∧
        ∀ dir, IsAbove dir below → w.enters (relative ++ dir) := by
  -- By induction on the tree: below a directory the same walk goes on, one name further down.
  induction hn generalizing relative path with
  | file data | link target =>
    simp only [Node.entries, visits, List.not_mem_nil, false_iff]
    rintro ⟨below, -, hne, ⟨data, hdata⟩, -⟩
    obtain ⟨name, rest, rfl⟩ := List.exists_cons_of_ne_nil hne
    simp [Node.get?] at hdata
  | @dir mtime es distinct _ _ ih =>
    simp only [Node.entries, visits_eq_flatMap, List.mem_flatMap]
    constructor
    · rintro ⟨⟨name, node⟩, hmem, hvisit⟩
      have hlookup := (Keyed.lookup_eq_some_iff distinct).mpr hmem
      cases node with
      | file data =>
        refine ⟨[name], file_mem_visitsAt_file.mp hvisit, by simp, ⟨data, ?_⟩, ?_⟩
        · simp [Node.get?_dir_cons, hlookup]
        · intro dir habove
          exact absurd rfl (isAbove_cons_iff.mp habove).1
      | link target => exact absurd hvisit not_mem_visitsAt_link
      | dir mtime' below =>
        obtain ⟨henters, hvisit⟩ := file_mem_visitsAt_dir.mp hvisit
        obtain ⟨rest, rfl, hne, ⟨data, hdata⟩, hrest⟩ := (ih _ hmem).mp hvisit
        refine ⟨name :: rest, by simp, by simp, ⟨data, ?_⟩, ?_⟩
        · simpa [Node.get?_dir_cons, hlookup] using hdata
        · intro dir habove
          rcases (isAbove_cons_iff.mp habove).2 with rfl | ⟨dir', rfl, habove'⟩
          · exact henters
          · simpa using hrest dir' habove'
    · rintro ⟨below, rfl, hne, ⟨data, hdata⟩, habove⟩
      obtain ⟨name, rest, rfl⟩ := List.exists_cons_of_ne_nil hne
      rw [Node.get?_dir_cons, Option.bind_eq_some_iff] at hdata
      obtain ⟨node, hlookup, hdata⟩ := hdata
      have hmem := (Keyed.lookup_eq_some_iff distinct).mp hlookup
      refine ⟨(name, node), hmem, ?_⟩
      -- The first name is that of the file, or of a directory which the walk enters.
      cases rest with
      | nil =>
        obtain rfl : node = .file data := by simpa using hdata
        exact file_mem_visitsAt_file.mpr rfl
      | cons second rest =>
        cases node with
        | file | link => simp [Node.get?] at hdata
        | dir mtime' below =>
          have hname : IsAbove [name] (name :: second :: rest) := ⟨by simp, second :: rest, by simp⟩
          refine file_mem_visitsAt_dir.mpr ⟨habove _ hname, (ih _ hmem).mpr ?_⟩
          refine ⟨second :: rest, by simp, by simp, ⟨data, hdata⟩, ?_⟩
          intro dir hdir
          simpa using habove (name :: dir) (isAbove_cons_iff.mpr ⟨by simp, .inr ⟨dir, rfl, hdir⟩⟩)

end Walk

/-! ### Nothing is met twice -/

/-- The names that lead from the base of a walk to what it meets. -/
def Visit.place : Visit → List String
  | .file relative => relative
  | .checkout relative => relative

/-- The names that lead to a file. -/
def Visit.file? : Visit → Option (List String)
  | .file relative => some relative
  | .checkout _ => none

theorem Visit.mem_filterMap_file? {vs : List Visit} {path : List String} :
    path ∈ vs.filterMap file? ↔ .file path ∈ vs := by
  simp only [List.mem_filterMap]
  constructor
  · rintro ⟨_ | _, hv, h⟩
    · obtain rfl := Option.some.inj h
      exact hv
    · simp [file?] at h
  · exact fun h => ⟨_, h, rfl⟩

theorem Visit.files_eq_map (vs : List Visit) :
    Visit.files vs = (vs.filterMap file?).map relativeText := by
  rw [List.map_filterMap]
  refine List.filterMap_congr fun v _ => ?_
  cases v <;> rfl

namespace Walk

variable {w : Walk}

theorem prefix_place_of_mem_visits {relative : List String} {es : List (String × Node)} {v : Visit}
    (h : v ∈ w.visits relative es) : ∃ e ∈ es, relative ++ [e.1] <+: v.place := by
  fun_induction w.visits relative es with
  | case1 => simp at h
  | case2 relative name data rest ih =>
    rcases List.mem_cons.mp h with rfl | h
    · exact ⟨_, List.mem_cons_self, List.prefix_rfl⟩
    · obtain ⟨e, he, hprefix⟩ := ih h
      exact ⟨e, List.mem_cons_of_mem _ he, hprefix⟩
  | case3 relative name target rest ih =>
    obtain ⟨e, he, hprefix⟩ := ih h
    exact ⟨e, List.mem_cons_of_mem _ he, hprefix⟩
  | case4 relative name mtime es rest here below ihbelow ih =>
    rcases List.mem_append.mp h with h | h
    · have hbelow : v = .checkout here ∨ v ∈ w.visits here es := by
        revert h
        simp only [below]
        split_ifs <;> simp_all
      refine ⟨_, List.mem_cons_self, ?_⟩
      rcases hbelow with rfl | h
      · exact List.prefix_rfl
      · obtain ⟨e, -, hprefix⟩ := ihbelow h
        exact (List.prefix_append here [e.1]).trans hprefix
    · obtain ⟨e, he, hprefix⟩ := ih h
      exact ⟨e, List.mem_cons_of_mem _ he, hprefix⟩

theorem nodup_visits {n : Node} (hn : n.WellNamed) (relative : List String) :
    (w.visits relative n.entries).Nodup := by
  induction hn generalizing relative with
  | file | link => simp [Node.entries, visits]
  | @dir mtime es distinct _ _ ih =>
    simp only [Node.entries, visits_eq_flatMap]
    refine List.nodup_flatMap.mpr ⟨?_, ?_⟩
    · rintro ⟨name, _ | _ | ⟨mtime', below⟩⟩ hmem
      · simp [visitsAt, visits]
      · simp [visitsAt, visits]
      · have hbelow : (w.visits (relative ++ [name]) below).Nodup := ih _ hmem _
        simp only [visitsAt, visits, List.append_nil]
        split_ifs <;> simp [hbelow]
    · refine (List.pairwise_map.mp distinct).imp fun {a b} hne v ha hb => hne ?_
      -- What is met twice would be behind two names of one directory.
      obtain ⟨_, ha', hprefix⟩ := prefix_place_of_mem_visits ha
      obtain ⟨_, hb', hprefix'⟩ := prefix_place_of_mem_visits hb
      obtain rfl := List.mem_singleton.mp ha'
      obtain rfl := List.mem_singleton.mp hb'
      have heq :=
        (List.prefix_of_prefix_length_le hprefix hprefix' (by simp)).eq_of_length (by simp)
      simpa using heq

end Walk

/-! ### The plain definition -/

namespace FileTree

/-- A directory, by its names from the base, that no selection looks into, whatever the patterns
say: one of version control or of the cache, a link, one that is to be skipped, and a checkout if
those are not wanted. -/
def Bars (t : FileTree) (skipped : List Path) (excludeSubmodules : Bool) (base dir : List String) :
    Prop :=
  dir.getLast? = some ".git" ∨ dir.getLast? = some ".multilint-cache" ∨
    (∃ target, t.root.get? (base ++ dir) = some (.link target)) ∨
    (∃ p ∈ skipped, t.realPath ⟨.root, base ++ dir⟩ = .ok p) ∨
    (excludeSubmodules ∧ t.pathExists ⟨.root, base ++ dir ++ [".git"]⟩)

/-- A file, by its names from the base, that the settings of a linter select. -/
structure Selects (t : FileTree) (skipped : List Path) (s : LinterSettings)
    (globalExcludes : List String) (base parts : List String) : Prop where
  below : parts ≠ []
  isFile : ∃ data, t.root.get? (base ++ parts) = some (.file data)
  unbarred : ∀ dir, IsAbove dir parts → ¬ t.Bars skipped s.excludeSubmodules base dir
  included : (∀ source ∈ s.includes, Text.isBlankText source) ∨
    Glob.AnyCovers s.includes (relativeText parts)
  notExcluded : ¬ Glob.AnyCovers (globalExcludes ++ s.excludes) (relativeText parts)

/-- The walk of a selection. -/
def walkFor (t : FileTree) (skipped : List Path) (s : LinterSettings) (excludes : List Glob)
    (base : List String) : Walk :=
  { base, excludes, skipped, excludeSubmodules := s.excludeSubmodules, isCheckout := t.isCheckout }

variable {t : FileTree} {skipped : List Path} {s : LinterSettings} {globalExcludes : List String}
  {includes excludes : List Glob} {base : List String}

/-- The walk of a selection passes over a directory that is barred, and over no other without a
pattern that describes it. -/
theorem enters_walkFor_iff (hnamed : t.root.WellNamed) {dir : List String} (hne : dir ≠ [])
    {mtime : Int} {es : List (String × Node)}
    (hdir : t.root.get? (base ++ dir) = some (.dir mtime es)) :
    (t.walkFor skipped s excludes base).enters dir ↔
      ¬ t.Bars skipped s.excludeSubmodules base dir ∧
        ∀ g ∈ excludes, ¬ g.accepts (relativeText dir) true := by
  obtain ⟨last, hlast⟩ := Option.ne_none_iff_exists'.mp (mt List.getLast?_eq_none_iff.mp hne)
  have hskipped : (t.walkFor skipped s excludes base).isSkipped dir ↔
      last = ".git" ∨ last = ".multilint-cache" ∨
        ∃ p ∈ skipped, t.realPath ⟨.root, base ++ dir⟩ = .ok p := by
    simp [Walk.isSkipped, walkFor, alwaysSkipped, defaultCacheDir, hlast,
      realPath_of_isDir hnamed hdir, or_assoc]
  have hnested : (t.walkFor skipped s excludes base).isNested dir ↔
      s.excludeSubmodules ∧ t.pathExists ⟨.root, base ++ dir ++ [".git"]⟩ := by
    simp [Walk.isNested, walkFor, isCheckout]
  have hexcluded : (t.walkFor skipped s excludes base).isExcluded dir ↔
      ∃ g ∈ excludes, g.accepts (relativeText dir) true := by
    simp [Walk.isExcluded, walkFor]
  -- A directory of the tree is no link, which is why the walk has no rule for links.
  have hnolink : ¬ ∃ target, t.root.get? (base ++ dir) = some (.link target) := by simp [hdir]
  simp only [Walk.enters, Bool.and_eq_true, Bool.not_eq_true', ← Bool.not_eq_true, hskipped,
    hnested, hexcluded, Bars, hlast, Option.some.injEq, hnolink, false_or]
  push Not
  tauto

/-- A directory above a file is one in the tree. -/
theorem exists_dir_of_isAbove {dir parts : List String} {n : Node} (habove : IsAbove dir parts)
    (hn : t.root.get? (base ++ parts) = some n) :
    ∃ mtime es, t.root.get? (base ++ dir) = some (.dir mtime es) := by
  obtain ⟨-, rest, hrest, rfl⟩ := habove
  obtain ⟨name, rest, rfl⟩ := List.exists_cons_of_ne_nil hrest
  exact Node.exists_dir_of_get?_append (by rwa [← List.append_assoc] at hn)

/-- What a selection keeps of a walk that prunes is what the plain definition selects. -/
theorem kept_iff_selects (hnamed : t.root.WellNamed)
    (hincludes : Glob.compileAll s.includes = .ok includes)
    (hexcludes : Glob.compileAll (globalExcludes ++ s.excludes) = .ok excludes) {n : Node}
    (hn : t.root.get? base = some n) {parts : List String} :
    .file parts ∈ (t.walkFor skipped s excludes base).visits [] n.entries ∧
        (includes.isEmpty ∨ Glob.anyCovers includes (relativeText parts)) ∧
        ¬ Glob.anyCovers excludes (relativeText parts) ↔
      t.Selects skipped s globalExcludes base parts := by
  have hget : ∀ names, t.root.get? (base ++ names) = n.get? names := fun names => by
    rw [Node.get?_append, hn, Option.bind_some]
  rw [Walk.file_mem_visits_iff (hnamed.get? hn), Glob.isEmpty_compileAll_iff hincludes,
    Glob.anyCovers_compileAll_iff hincludes, Glob.anyCovers_compileAll_iff hexcludes]
  constructor
  · rintro ⟨⟨below, rfl, hne, ⟨data, hdata⟩, henters⟩, hincluded, hexcluded⟩
    refine ⟨hne, ⟨data, (hget _).trans hdata⟩, ?_, hincluded, hexcluded⟩
    intro dir habove
    obtain ⟨_, _, hdir⟩ := exists_dir_of_isAbove habove ((hget _).trans hdata)
    exact ((enters_walkFor_iff hnamed habove.1 hdir).mp (henters dir habove)).1
  · rintro ⟨hne, ⟨data, hdata⟩, hunbarred, hincluded, hexcluded⟩
    refine ⟨⟨parts, rfl, hne, ⟨data, (hget _).symm.trans hdata⟩, ?_⟩, hincluded, hexcluded⟩
    intro dir habove
    obtain ⟨_, _, hdir⟩ := exists_dir_of_isAbove habove hdata
    refine (enters_walkFor_iff hnamed habove.1 hdir).mpr ⟨hunbarred dir habove, ?_⟩
    -- A pattern that describes the directory would cover the file below it.
    intro g hg haccepts
    have hnames : ∀ name ∈ parts, '/' ∉ name.toList := fun name hname =>
      (hnamed.isName_of_mem hdata (List.mem_append_right _ hname)).no_separator
    have hcovers : g.covers (relativeText parts) :=
      (Glob.covers_relativeText_iff hne hnames).mpr (.inr ⟨dir, habove, haccepts⟩)
    exact hexcluded ((Glob.anyCovers_compileAll_iff hexcludes).mp
      (List.any_eq_true.mpr ⟨g, hg, hcovers⟩))

/-- Files met by a walk, once each, are in strictly rising order when sorted. -/
theorem pairwise_lt_sorted {files : List String} (h : files.Nodup) :
    (Text.sorted files).Pairwise (· < ·) := by
  have hnodup : (Text.sorted files).Pairwise (· ≠ ·) := (Text.sorted_perm files).nodup_iff.mpr h
  refine ((Text.pairwise_sorted files).and hnodup).imp fun {a b} ⟨hle, hne⟩ => ?_
  exact String.not_le.mp fun hge => hne (String.le_antisymm hle hge)

theorem nodup_files_visits {w : Walk} {n : Node} (hn : n.WellNamed) :
    (Visit.files (w.visits [] n.entries)).Nodup := by
  rw [Visit.files_eq_map]
  refine List.Nodup.map_on ?_ ((Walk.nodup_visits hn []).filterMap ?_)
  · intro xs hxs ys hys heq
    obtain ⟨_, rfl, hx, ⟨_, hxfile⟩, -⟩ :=
      (Walk.file_mem_visits_iff hn).mp (Visit.mem_filterMap_file?.mp hxs)
    obtain ⟨_, rfl, hy, ⟨_, hyfile⟩, -⟩ :=
      (Walk.file_mem_visits_iff hn).mp (Visit.mem_filterMap_file?.mp hys)
    -- Names have no separators, so the joined text tells them apart.
    exact relativeText_inj hx hy (fun name h => (hn.isName_of_mem hxfile h).no_separator)
      (fun name h => (hn.isName_of_mem hyfile h).no_separator) heq
  · rintro (_ | _) (_ | _) path hv hv' <;> simp_all [Visit.file?]

/-- A selection is the list, in strictly rising order, of the paths that the plain definition
selects. -/
theorem select_exact (hnamed : t.root.WellNamed) {workDir base : Path}
    (hbase : t.realPath workDir = .ok base) (hincludes : Glob.Readable s.includes)
    (hexcludes : Glob.Readable (globalExcludes ++ s.excludes)) :
    ∃ selection, t.select skipped s workDir globalExcludes = .ok selection ∧
      selection.files.Pairwise (· < ·) ∧
      ∀ path, path ∈ selection.files ↔
        ∃ parts, path = relativeText parts ∧
          t.Selects skipped s globalExcludes base.parts parts := by
  obtain ⟨includes, hincludes⟩ := Glob.exists_compileAll hincludes
  obtain ⟨excludes, hexcludes⟩ := Glob.exists_compileAll hexcludes
  refine ⟨_, by simp only [select, hincludes, hexcludes, hbase, Except.mapError]; rfl, ?_, ?_⟩
  · refine pairwise_lt_sorted (List.Nodup.filter _ ?_)
    split
    · next n hn => exact nodup_files_visits (hnamed.get? hn)
    · simp [Visit.files]
  · intro path
    rw [Text.mem_sorted, List.mem_filter]
    split
    · next n hn =>
      simp only [← kept_iff_selects hnamed hincludes hexcludes hn, Visit.files_eq_map,
        List.mem_map, Visit.mem_filterMap_file?, Bool.and_eq_true, Bool.or_eq_true,
        Bool.not_eq_true', ← Bool.not_eq_true]
      constructor
      · rintro ⟨⟨parts, hvisit, rfl⟩, hkept⟩
        exact ⟨parts, rfl, hvisit, hkept⟩
      · rintro ⟨parts, rfl, hvisit, hkept⟩
        exact ⟨⟨parts, hvisit, rfl⟩, hkept⟩
    · next hnone =>
      -- Nothing is at the base, so nothing can be selected below it.
      simp only [Visit.files, List.filterMap_nil, List.not_mem_nil, false_and, false_iff]
      rintro ⟨parts, -, hselects⟩
      obtain ⟨data, hdata⟩ := hselects.isFile
      rw [Node.get?_append, hnone] at hdata
      simp at hdata

/-- A directory with two Python files at its top, one in a directory that is excluded, one among
version control data, and a link. -/
theorem select_exact_excluded_directory :
    ∃ (t : FileTree) (s : LinterSettings) (selection : Selection),
      t.root.WellNamed ∧ t.realPath ⟨.root, ["w"]⟩ = .ok ⟨.root, ["w"]⟩ ∧
      s.includes = ["*.py"] ∧ Glob.Readable s.includes ∧
      s.excludes = ["build/"] ∧ Glob.Readable (["vendor"] ++ s.excludes) ∧
      t.select [] s ⟨.root, ["w"]⟩ ["vendor"] = .ok selection ∧
      selection.files.Pairwise (· < ·) ∧
      ∀ path, path ∈ selection.files ↔
        ∃ parts, path = relativeText parts ∧ t.Selects [] s ["vendor"] ["w"] parts := by
  let data : FileData := { content := [], mtime := 1, executable := false }
  let git : Node := .dir 0 [("hook.py", .file data)]
  let build : Node := .dir 0 [("c.py", .file data)]
  let work : Node := .dir 0 [("z.py", .file data), ("a.py", .file data), ("b.py", .link "a.py"),
    (".git", git), ("build", build)]
  let t : FileTree := { root := .dir 0 [("w", work)], cwd := [], clock := 2 }
  let s : LinterSettings :=
    { name := "lint", command := "lint", options := [], workDir := none, includes := ["*.py"]
      excludes := ["build/"], formats := [], checkHash := false, excludeSubmodules := true
      singleFile := false, timeout := none }
  have hnames : ∀ name ∈ ["w", "z.py", "a.py", "b.py", ".git", "build", "hook.py", "c.py"],
      Node.IsName name := by
    intro name hname
    refine ⟨?_, ?_, ?_, ?_, ?_⟩ <;> revert name <;> decide
  have hgit : git.WellNamed :=
    .dir (by decide) (by simpa using hnames "hook.py" (by decide)) (by simpa using .file data)
  have hbuild : build.WellNamed :=
    .dir (by decide) (by simpa using hnames "c.py" (by decide)) (by simpa using .file data)
  have hwork : work.WellNamed := by
    refine .dir (by decide) ?_ ?_
    · simp [hnames]
    · simp [hgit, hbuild, Node.WellNamed.file, Node.WellNamed.link]
  have hroot : t.root.WellNamed :=
    .dir (by decide) (by simpa using hnames "w" (by decide)) (by simpa using hwork)
  have hbase : t.realPath ⟨.root, ["w"]⟩ = .ok ⟨.root, ["w"]⟩ := realPath_of_isDir hroot rfl
  have hcompile : ∀ source ∈ ["*.py", "vendor", "build/"], (Glob.compile source).isOk := by
    decide +kernel
  have hreadable : ∀ source ∈ ["*.py", "vendor", "build/"], ∃ g, Glob.compile source = .ok g := by
    intro source hsource
    have hok := hcompile source hsource
    cases hg : Glob.compile source with
    | error e => simp [hg, Except.isOk, Except.toBool] at hok
    | ok g => exact ⟨g, rfl⟩
  have hincludes : Glob.Readable s.includes := fun source hsource _ =>
    hreadable source (List.mem_of_mem_take (i := 1) hsource)
  have hexcludes : Glob.Readable (["vendor"] ++ s.excludes) := fun source hsource _ =>
    hreadable source (List.mem_cons_of_mem _ hsource)
  obtain ⟨selection, hselect, hsorted, hmem⟩ :=
    @select_exact t [] s ["vendor"] hroot _ _ hbase hincludes hexcludes
  exact ⟨t, s, selection, hroot, hbase, rfl, hincludes, rfl, hexcludes, hselect, hsorted, hmem⟩

end FileTree

end LinterSuite
