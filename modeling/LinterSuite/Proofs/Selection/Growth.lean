import LinterSuite.Proofs.FileTree.Growth
import LinterSuite.Proofs.Selection.Pruning

/-!
# Selections in growing trees

A selection stays the same while a tree grows, as long as what is written below its base is below a
directory that no selection enters, and nothing is put in places where checkouts have their version
control data. The selected files are the same, too, and so is what can be read there.

## Main definitions

* `FileTree.Hides`: written places that no selection below a base meets

## Main results

* `FileTree.Grows.isCheckout_eq`: a directory stays a checkout, or none
* `FileTree.Grows.select_files`: the same files are selected
* `FileTree.Grows.stat_selected`: what is found at a selected file
-/

namespace LinterSuite

/-! ### Paths of selected files -/

/-- A relative path is read as it was written. -/
theorem Path.ofString_relativeText {names : List String} (hne : names ≠ [])
    (hnames : ∀ name ∈ names, Node.IsName name) :
    Path.ofString (relativeText names) = ⟨.relative, names⟩ := by
  have hread : (⟨.relative, names⟩ : Path).IsRead := fun name hname =>
    ⟨(hnames name hname).ne_empty, (hnames name hname).ne_dot, (hnames name hname).no_separator⟩
  have htext : (⟨.relative, names⟩ : Path).toString = relativeText names := by
    rw [Path.toString_of_ne_nil hne, Path.Anchor.text, String.empty_append, relativeText]
  rw [← htext, Path.ofString_toString hread]

namespace FileTree

variable {t t' : FileTree} {place : List String} {made written : List String → Prop}

/-! ### Checkouts -/

theorem isName_git : Node.IsName ".git" := by
  refine ⟨?_, ?_, ?_, ?_, ?_⟩ <;> decide

/-- A directory stays a checkout, or none, if nothing is put there under that name, and a link under
that name leads to something. -/
theorem Grows.isCheckout_eq (h : t.Grows made written t') (hnamed : t.root.WellNamed) {mtime : Int}
    {es : List (String × Node)} (hdir : t.root.get? place = some (.dir mtime es))
    (hmade : ¬ made (place ++ [".git"])) (hwritten : ¬ written (place ++ [".git"]))
    (hlinks : ∀ text, t.root.get? (place ++ [".git"]) = some (.link text) → t.isCheckout place) :
    t'.isCheckout place = t.isCheckout place := by
  have hnames : ∀ name ∈ place, Node.IsName name := fun _ hname => hnamed.isName_of_mem hdir hname
  have hroot : t.HasDir ⟨.root, []⟩ [] := by
    obtain ⟨_, _, hroot⟩ : ∃ mtime es, t.root.get? [] = some (.dir mtime es) := by
      cases place with
      | nil => exact ⟨_, _, hdir⟩
      | cons first rest =>
        have hdir : t.root.get? ([] ++ first :: rest) = some (.dir mtime es) := hdir
        exact Node.exists_dir_of_get?_append hdir
    exact .here hroot
  obtain ⟨_, es', hdir'⟩ := h.isDir hdir
  have hplace := h.places (place ++ [".git"])
  rw [Node.get?_concat hdir, Node.get?_concat hdir'] at hplace
  rw [Node.get?_concat hdir] at hlinks
  have hstat := fun hlink => stat_names hroot hnames isName_git hdir hlink
  have hstat' := fun hlink => stat_names (h.hasDir hroot) hnames isName_git hdir' hlink
  simp only [List.nil_append] at hstat hstat'
  cases hentry : es.lookup ".git" with
  | none =>
    rw [hentry] at hplace
    have hentry' := hplace.eq_none hmade hwritten
    unfold isCheckout FileTree.pathExists
    rw [hstat (by simp [hentry]), hstat' (by simp [hentry']), hentry, hentry']
  | some m =>
    cases m with
    | link text =>
      have hcheckout := hlinks text hentry
      rw [hcheckout]
      exact h.pathExists hcheckout
    | file | dir =>
      -- Something is there in both trees, and it can be reached in both or in neither.
      obtain ⟨m', hm', hshape⟩ := hplace.exists_of_some hentry
      have hlink' : ∀ text, es'.lookup ".git" ≠ some (.link text) := by
        intro text htext
        rw [htext] at hm'
        obtain rfl := Option.some.inj hm'
        exact nomatch hshape
      unfold isCheckout FileTree.pathExists
      rw [hstat (by simp [hentry]), hstat' hlink', hentry, hm']
      split_ifs <;> rfl

/-! ### Selections -/

/-- Places below a base that no selection meets, because they are below a directory that is not
entered. -/
def Hides (skipped : List Path) (base names : List String) : Prop :=
  ∀ below, below ≠ [] → names = base ++ below → ∃ dir, IsAbove dir below ∧
    (dir.getLast?.getD "" ∈ alwaysSkipped ∨ ⟨.root, base ++ dir⟩ ∈ skipped)

/-- What a tree may grow by, so that no selection below a base takes notice: nothing is put in
places of version control data, and links in such places lead to something; files are written only
where no selection meets them. -/
structure Unnoticed (t : FileTree) (made written : List String → Prop) (skipped : List Path)
    (base : List String) : Prop where
  noneMade : ∀ place, ¬ made (place ++ [".git"])
  noneWritten : ∀ place, ¬ written (place ++ [".git"])
  links : ∀ place text, t.root.get? (place ++ [".git"]) = some (.link text) → t.isCheckout place
  hidden : ∀ names, written names → Hides skipped base names

section

variable {skipped : List Path} {s : LinterSettings} {excludes : List Glob} {base : List String}

/-- No walk enters all directories above a place where a file is written. -/
theorem not_written_of_enters (hunnoticed : t.Unnoticed made written skipped base) {tree : FileTree}
    {below : List String} (hne : below ≠ [])
    (henters : ∀ dir, IsAbove dir below → (tree.walkFor skipped s excludes base).enters dir) :
    ¬ written (base ++ below) := by
  intro hwritten
  obtain ⟨dir, habove, hskipped⟩ := hunnoticed.hidden _ hwritten below hne rfl
  have hnot : (tree.walkFor skipped s excludes base).isSkipped dir = true := by
    simpa only [Walk.isSkipped, walkFor, Bool.or_eq_true, List.contains_iff_mem] using hskipped
  have hin := henters dir habove
  simp [Walk.enters, hnot] at hin

variable (hgrows : t.Grows made written t') (hnamed : t.root.WellNamed)
  (hunnoticed : t.Unnoticed made written skipped base)

include hgrows hnamed hunnoticed

/-- The walk of a selection enters the same directories. -/
theorem enters_walkFor_eq {dir : List String} {mtime : Int} {es : List (String × Node)}
    (hdir : t.root.get? (base ++ dir) = some (.dir mtime es)) :
    (t'.walkFor skipped s excludes base).enters dir =
      (t.walkFor skipped s excludes base).enters dir := by
  have hcheckout := hgrows.isCheckout_eq hnamed hdir (hunnoticed.noneMade _)
    (hunnoticed.noneWritten _) (hunnoticed.links _)
  simp only [Walk.enters, Walk.isSkipped, Walk.isNested, Walk.isExcluded, walkFor, hcheckout]

/-- The walk of a selection meets the same files. -/
theorem file_mem_visits_grows_iff {n n' : Node} (hn : t.root.get? base = some n)
    (hn' : t'.root.get? base = some n') {names : List String} :
    .file names ∈ (t'.walkFor skipped s excludes base).visits [] n'.entries ↔
      .file names ∈ (t.walkFor skipped s excludes base).visits [] n.entries := by
  have hget : ∀ below, t.root.get? (base ++ below) = n.get? below := fun below => by
    rw [Node.get?_append, hn, Option.bind_some]
  have hget' : ∀ below, t'.root.get? (base ++ below) = n'.get? below := fun below => by
    rw [Node.get?_append, hn', Option.bind_some]
  rw [Walk.file_mem_visits_iff (hnamed.get? hn),
    Walk.file_mem_visits_iff ((hgrows.wellNamed hnamed).get? hn')]
  refine exists_congr fun below => and_congr_right fun _ => and_congr_right fun hne => ?_
  simp only [← hget, ← hget', List.nil_append]
  constructor
  · rintro ⟨⟨data, hdata⟩, henters⟩
    have hfile := ((hgrows.places _).file_iff
      (not_written_of_enters hunnoticed hne henters) data).mp hdata
    refine ⟨⟨data, hfile⟩, fun dir habove => ?_⟩
    obtain ⟨_, _, hdir⟩ := exists_dir_of_isAbove habove hfile
    rw [← enters_walkFor_eq hgrows hnamed hunnoticed hdir]
    exact henters dir habove
  · rintro ⟨⟨data, hdata⟩, henters⟩
    have hfile := ((hgrows.places _).file_iff
      (not_written_of_enters hunnoticed hne henters) data).mpr hdata
    refine ⟨⟨data, hfile⟩, fun dir habove => ?_⟩
    obtain ⟨_, _, hdir⟩ := exists_dir_of_isAbove habove hdata
    rw [enters_walkFor_eq hgrows hnamed hunnoticed hdir]
    exact henters dir habove

end

/-- Lists that differ in order only are the same when sorted. -/
theorem sorted_eq_of_perm {xs ys : List String} (h : xs.Perm ys) :
    Text.sorted xs = Text.sorted ys :=
  List.Perm.eq_of_pairwise (fun _ _ _ _ => String.le_antisymm) (Text.pairwise_sorted xs)
    (Text.pairwise_sorted ys) ((Text.sorted_perm xs).trans (h.trans (Text.sorted_perm ys).symm))

namespace IsDirAt

variable {workDir : Path} {base : List String} {skipped : List Path} {s : LinterSettings}
  {globalExcludes : List String}

/-- The same files are selected. -/
theorem select_files (h : t.IsDirAt workDir base) (hgrows : t.Grows made written t')
    (hnamed : t.root.WellNamed) (hunnoticed : t.Unnoticed made written skipped base) :
    (t'.select skipped s workDir globalExcludes).map (·.files) =
      (t.select skipped s workDir globalExcludes).map (·.files) := by
  obtain ⟨mtime, es, hget⟩ := h.hasDir.exists_dir
  obtain ⟨mtime', es', hget'⟩ := hgrows.isDir hget
  have hbase' := (h.grows hgrows).realPath (hgrows.wellNamed hnamed)
  unfold select
  rw [h.realPath hnamed, hbase']
  cases Glob.compileAll s.includes with
  | error e => rfl
  | ok includes =>
    cases Glob.compileAll (globalExcludes ++ s.excludes) with
    | error e => rfl
    | ok excludes =>
      simp only [Except.mapError, bind, Except.bind, pure, Except.pure, Except.map, hget, hget']
      refine congrArg _ (sorted_eq_of_perm (List.Perm.filter _ ?_))
      refine (List.perm_ext_iff_of_nodup (nodup_files_visits ((hgrows.wellNamed hnamed).get? hget'))
        (nodup_files_visits (hnamed.get? hget))).mpr fun file => ?_
      rw [Visit.files_eq_map, Visit.files_eq_map, List.mem_map, List.mem_map]
      simp only [Visit.mem_filterMap_file?]
      refine exists_congr fun names => and_congr_left fun _ => ?_
      exact file_mem_visits_grows_iff hgrows hnamed hunnoticed hget hget'

/-- A selected file is one that the walk met. -/
theorem exists_of_mem_files (h : t.IsDirAt workDir base) (hnamed : t.root.WellNamed)
    {selection : Selection} (hselect : t.select skipped s workDir globalExcludes = .ok selection)
    {file : String} (hfile : file ∈ selection.files) :
    ∃ excludes names, file = relativeText names ∧ names ≠ [] ∧
      (∃ data, t.root.get? (base ++ names) = some (.file data)) ∧
      ∀ dir, IsAbove dir names → (t.walkFor skipped s excludes base).enters dir := by
  obtain ⟨mtime, es, hget⟩ := h.hasDir.exists_dir
  unfold select at hselect
  rw [h.realPath hnamed] at hselect
  obtain ⟨includes, -, hselect⟩ := Except.bind_eq_ok_iff.mp hselect
  obtain ⟨excludes, -, hselect⟩ := Except.bind_eq_ok_iff.mp hselect
  obtain ⟨root, hroot, hselect⟩ := Except.bind_eq_ok_iff.mp hselect
  obtain rfl := Except.ok.inj (Except.mapError_eq_ok_iff.mp hroot)
  simp only [hget] at hselect
  obtain rfl := Except.ok.inj hselect
  obtain ⟨hfile, -⟩ := List.mem_filter.mp (Text.mem_sorted.mp hfile)
  rw [Visit.files_eq_map, List.mem_map] at hfile
  obtain ⟨names, hvisit, rfl⟩ := hfile
  obtain ⟨_, rfl, hne, ⟨data, hdata⟩, henters⟩ :=
    (Walk.file_mem_visits_iff (hnamed.get? hget)).mp (Visit.mem_filterMap_file?.mp hvisit)
  refine ⟨excludes, _, rfl, hne, ⟨data, ?_⟩, henters⟩
  rw [Node.get?_append, hget, Option.bind_some]
  exact hdata

/-- The same is found at a selected file. -/
theorem stat_selected (h : t.IsDirAt workDir base) (hgrows : t.Grows made written t')
    (hnamed : t.root.WellNamed) (hunnoticed : t.Unnoticed made written skipped base)
    {selection : Selection} (hselect : t.select skipped s workDir globalExcludes = .ok selection)
    {file : String} (hfile : file ∈ selection.files) :
    t'.stat (workDir.join (Path.ofString file)) = t.stat (workDir.join (Path.ofString file)) := by
  obtain ⟨excludes, names, rfl, hne, ⟨data, hdata⟩, henters⟩ :=
    h.exists_of_mem_files hnamed hselect hfile
  have hnames : ∀ name ∈ names, Node.IsName name := fun name hname =>
    hnamed.isName_of_mem hdata (List.mem_append_right _ hname)
  have hdata' : t'.root.get? (base ++ names) = some (.file data) :=
    ((hgrows.places _).file_iff (not_written_of_enters hunnoticed hne henters) data).mpr hdata
  rw [Path.ofString_relativeText hne hnames]
  -- The last of the names is that of the file.
  obtain ⟨dirs, last, rfl⟩ : ∃ dirs last, names = dirs ++ [last] :=
    ⟨_, _, (List.dropLast_append_getLast hne).symm⟩
  rw [← List.append_assoc] at hdata hdata'
  obtain ⟨mtime, es, hdir⟩ := Node.exists_dir_of_get?_append hdata
  obtain ⟨mtime', es', hdir'⟩ := hgrows.isDir hdir
  rw [Node.get?_concat hdir] at hdata
  rw [Node.get?_concat hdir'] at hdata'
  exact stat_congr h.hasDir (hgrows.hasDir h.hasDir) hnames hdir hdir' (by simp [hdata])
    (hdata'.trans hdata.symm)

end IsDirAt

end FileTree

end LinterSuite
