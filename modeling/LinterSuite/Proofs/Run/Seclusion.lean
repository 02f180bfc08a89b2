import LinterSuite.Proofs.Cache.Loads
import LinterSuite.Proofs.Cache.Verdict
import LinterSuite.Proofs.Run.Samples
import LinterSuite.Proofs.Run.Turns
import LinterSuite.Proofs.Selection.Growth

/-!
# Stores out of the way

While a run goes on, records of its targets are saved. A store that is out of the way may be written
at any time: the same files are selected, and the same is found in them. A store in memory is always
so. One in a directory is if no selection enters that directory, and if making it turns nothing into
a checkout.

## Main definitions

* `Outset`: what a run starts from, as far as it does not depend on the runner
* `Outset.after`: the store and the tree after some records were saved
* `Outset.IsSteady`: a store out of the way
* `CacheStore.Secluded`: a directory for records that no selection enters

## Main results

* `CacheStore.Secluded.isSteady`: a store in such a directory is out of the way
* `Outset.IsSteady.slotAfter_eq`: what is done about a target depends on its record only
* `Sample.secluded_cache`: such a directory
-/

namespace LinterSuite

/-- The files selected for a target. -/
def Target.filesIn (skipped : List Path) (globalExcludes : List String) (t : FileTree)
    (target : Target) : Except SelectionError (List String) :=
  (t.select skipped target.settings target.workDir globalExcludes).map (·.files)

/-- What a run starts from, as far as it does not depend on the runner. -/
structure Outset where
  digest : Digest
  /-- Directories that no selection enters. -/
  skipped : List Path
  globalExcludes : List String
  store : CacheStore
  tree : FileTree
  targets : List Target

namespace Outset

/-- The files selected for a target. -/
def filesOf (a : Outset) (target : Target) : Except SelectionError (List String) :=
  target.filesIn a.skipped a.globalExcludes a.tree

/-- The linters that are run. -/
def names (a : Outset) : List String := a.targets.map Target.name

/-- The store and the tree after some records were saved, the last first. -/
def after (a : Outset) (rs : List RunRecord) : CacheStore × FileTree :=
  a.store.saveAll a.digest a.tree rs

/-- What is found out about a target after some records were saved. -/
def slotAfter (a : Outset) (rs : List RunRecord) (target : Target) : Except RunFailure Slot :=
  ((a.after rs).2.slot a.digest (a.after rs).1 a.skipped a.globalExcludes target).2

/-- The record of a linter after some were saved. -/
def loadAfter (a : Outset) (rs : List RunRecord) (name : String) :
    Except EntryError (Option RunRecord) :=
  (a.after rs).1.load a.digest (a.after rs).2 name

/-- A store out of the way: whatever records of the targets were saved in it, the same files are
selected, and the same is found there. -/
structure IsSteady (a : Outset) : Prop where
  admits : a.store.Admits a.digest a.tree a.names
  filesIn : ∀ rs, (∀ r ∈ rs, r.name ∈ a.names) → ∀ target ∈ a.targets,
    target.filesIn a.skipped a.globalExcludes (a.after rs).2 = a.filesOf target
  stat : ∀ rs, (∀ r ∈ rs, r.name ∈ a.names) → ∀ target ∈ a.targets, ∀ files,
    a.filesOf target = .ok files → ∀ p ∈ Job.paths ⟨target, files⟩,
      (a.after rs).2.stat p = a.tree.stat p

end Outset

variable {digest : Digest} {t t' : FileTree} {target : Target}

/-! ### What a job depends on -/

section

variable {j : Job} (h : ∀ p ∈ j.paths, t'.stat p = t.stat p)

include h

/-- What a job observes depends on what is found at its files only. -/
theorem Job.observeIn_congr : j.observeIn t' = j.observeIn t := by
  unfold observeIn FileTree.observe
  refine List.filterMap_congr fun file hfile => ?_
  rw [FileTree.times, FileTree.times, h _ (List.mem_map_of_mem hfile)]

theorem Job.recordIn_congr (o : Outcome) : j.recordIn digest t' o = j.recordIn digest t o :=
  CacheStore.recordOf_congr h o.succeeded

end

/-- What is done about a target depends on its files and on the verdict on them only. -/
theorem FileTree.slot_congr {skipped : List Path} {globalExcludes : List String}
    {store store' : CacheStore}
    (hfiles : target.filesIn skipped globalExcludes t' = target.filesIn skipped globalExcludes t)
    (hverdict : ∀ files, target.filesIn skipped globalExcludes t = .ok files →
      store'.verdict digest t' target.name (Job.paths ⟨target, files⟩) target.settings.checkHash
          target.fingerprint =
        store.verdict digest t target.name (Job.paths ⟨target, files⟩) target.settings.checkHash
          target.fingerprint) :
    (t'.slot digest store' skipped globalExcludes target).2 =
      (t.slot digest store skipped globalExcludes target).2 := by
  unfold slot
  unfold Target.filesIn at hfiles hverdict
  cases hselect : t.select skipped target.settings target.workDir globalExcludes with
  | error e =>
    cases hselect' : t'.select skipped target.settings target.workDir globalExcludes with
    | error e' =>
      obtain rfl : e' = e := by simpa [hselect, hselect', Except.map] using hfiles
      rfl
    | ok selection => simp [hselect, hselect', Except.map] at hfiles
  | ok selection =>
    cases hselect' : t'.select skipped target.settings target.workDir globalExcludes with
    | error e' => simp [hselect, hselect', Except.map] at hfiles
    | ok selection' =>
      have hsame : selection'.files = selection.files := by
        simpa [hselect, hselect', Except.map] using hfiles
      have hverdict := hverdict selection.files (by rw [hselect]; rfl)
      simp only [hsame, hverdict]
      split
      · rfl
      · split <;> rfl

namespace Outset.IsSteady

variable {a : Outset} {rs rs' : List RunRecord}

/-- What is done about a target depends on its record only. -/
theorem slotAfter_eq (h : a.IsSteady) (hrs : ∀ r ∈ rs, r.name ∈ a.names)
    (hrs' : ∀ r ∈ rs', r.name ∈ a.names) (htarget : target ∈ a.targets)
    (hload : a.loadAfter rs' target.name = a.loadAfter rs target.name) :
    a.slotAfter rs' target = a.slotAfter rs target := by
  have hfiles := h.filesIn rs hrs target htarget
  refine FileTree.slot_congr ((h.filesIn rs' hrs' target htarget).trans hfiles.symm)
    fun files hin => ?_
  have hsame : ∀ p ∈ Job.paths ⟨target, files⟩, (a.after rs').2.stat p = (a.after rs).2.stat p :=
    fun p hp => (h.stat rs' hrs' target htarget files (hfiles ▸ hin) p hp).trans
      (h.stat rs hrs target htarget files (hfiles ▸ hin) p hp).symm
  unfold loadAfter at hload
  unfold CacheStore.verdict
  rw [hload]
  simp only [CacheStore.verdictOf_congr hsame]

end Outset.IsSteady

namespace CacheStore

/-! ### Stores out of the way -/

/-- A store in memory is out of the way of everything. -/
theorem isSteady_memory {a : Outset} {records : List (String × RunRecord)}
    (h : a.store = .memory records) : a.IsSteady := by
  have hafter : ∀ rs, (a.after rs).2 = a.tree := by
    intro rs
    rw [Outset.after, h, saveAll_memory]
  refine ⟨h ▸ trivial, fun rs _ target _ => ?_, fun rs _ target _ files _ p _ => ?_⟩
  · rw [hafter]
    rfl
  · rw [hafter]

/-- A directory for the records of some targets that no selection enters: it is not the one in which
a target works, and if it is below that one, it is the directory of the cache, or there is a
directory on the way whose name keeps selections from it. Making it puts nothing in a place of
version control data, and links in such places lead to something. -/
structure Secluded (digest : Digest) (t : FileTree) (cacheDir dir : Path) (targets : List Target) :
    Prop where
  lodges : Lodges digest t dir (targets.map Target.name)
  apart : ∀ place, (t.makeDirs dir).1.HasDir dir place → ∀ target ∈ targets, ∀ base below,
    t.IsDirAt target.workDir base → place = base ++ below →
      below ≠ [] ∧ (dir = cacheDir ∨ ∃ name ∈ below, name ∈ alwaysSkipped)
  noCheckout : ∀ place, ¬ MadePlaces t dir (place ++ [".git"])
  checkouts : ∀ place text, t.root.get? (place ++ [".git"]) = some (.link text) →
    t.isCheckout place

namespace Secluded

variable {cacheDir dir skippedDir : Path} {targets : List Target}

/-- No selection takes notice of what is saved. -/
theorem unnoticed (h : Secluded digest t cacheDir dir targets)
    (hskipped : t.realPath cacheDir = .ok skippedDir) (htarget : target ∈ targets)
    {base : List String} (hat : t.IsDirAt target.workDir base) :
    t.Unnoticed (MadePlaces t dir) (EntryPlaces digest t dir (targets.map Target.name))
      [skippedDir] base := by
  obtain ⟨lodges, apart, noCheckout, checkouts⟩ := h
  have hgrows := FileTree.grows_makeDirs lodges.formed lodges.dirPlain rfl
  refine ⟨noCheckout, ?_, checkouts, ?_⟩
  · rintro place ⟨parent, -, name, -, heq⟩
    have hname := (List.append_inj' heq rfl).2
    exact entryName_ne (by decide) digest name (List.singleton_inj.mp hname).symm
  · rintro _ ⟨parent, hparent, name, -, rfl⟩ below hne heq
    -- The entry is the last, and what is before it leads to the directory of the cache.
    obtain ⟨between, last, rfl⟩ : ∃ between last, below = between ++ [last] :=
      ⟨_, _, (List.dropLast_append_getLast hne).symm⟩
    rw [← List.append_assoc] at heq
    obtain ⟨rfl, -⟩ := List.append_inj' heq rfl
    obtain ⟨hbetween, rfl | ⟨skippedName, hmem, hskippedName⟩⟩ :=
      apart _ hparent target htarget base between hat rfl
    · refine ⟨between, ⟨hbetween, [last], by simp, rfl⟩, .inr ?_⟩
      have hnull : dir.hasNull = false := by
        by_contra hnull
        simp only [FileTree.realPath, (Bool.not_eq_false _).mp hnull] at hskipped
        cases hskipped
      have hreal := FileTree.realPath_of_hasDir hgrows.sameLinks hgrows.cwd hparent
        (FileTree.LeadsTo.not_mem_empty (hgrows.wellNamed lodges.formed.named) hparent) hnull
      obtain rfl := Except.ok.inj (hskipped.symm.trans hreal)
      exact List.mem_singleton_self _
    · obtain ⟨before, after, rfl⟩ := List.append_of_mem hmem
      refine ⟨before ++ [skippedName], ⟨by simp, after ++ [last], by simp, by simp⟩, .inl ?_⟩
      simpa using hskippedName

/-- A store in such a directory is out of the way. -/
theorem isSteady (h : Secluded digest t cacheDir dir targets)
    (hskipped : t.realPath cacheDir = .ok skippedDir)
    (hdirs : ∀ target ∈ targets, t.isDir target.workDir) (globalExcludes : List String) :
    Outset.IsSteady ⟨digest, [skippedDir], globalExcludes, .directory dir, t, targets⟩ := by
  refine ⟨h.lodges, fun rs hrs target htarget => ?_, fun rs hrs target htarget files hfiles => ?_⟩
  · obtain ⟨base, hat⟩ := FileTree.exists_isDirAt_of_isDir (hdirs target htarget)
    exact hat.select_files (grows_saveAll h.lodges hrs) h.lodges.formed.named
      (h.unnoticed hskipped htarget hat)
  · obtain ⟨base, hat⟩ := FileTree.exists_isDirAt_of_isDir (hdirs target htarget)
    obtain ⟨selection, hselect, rfl⟩ := Except.map_eq_ok_iff.mp hfiles
    intro p hp
    obtain ⟨file, hfile, rfl⟩ := List.mem_map.mp hp
    exact hat.stat_selected (grows_saveAll h.lodges hrs) h.lodges.formed.named
      (h.unnoticed hskipped htarget hat) hselect hfile

end Secluded

end CacheStore

/-! ### An empty directory -/

namespace Sample

open FileTree

theorem isDirAt_cache : treeWithCache.IsDirAt ⟨.root, ["c"]⟩ ["c"] := by
  refine ⟨LeadsTo.down rfl ?_ ?_ ?_ rfl (.here rfl), ?_, ?_⟩ <;> decide

theorem isDirAt_root : treeWithCache.IsDirAt ⟨.root, []⟩ [] :=
  ⟨.here rfl, by decide, by decide⟩

theorem wellFormed_treeWithCache : treeWithCache.WellFormed := by
  refine ⟨.dir (by decide) ?_ ?_, ⟨_, _, rfl⟩⟩
  · simp only [List.forall_mem_cons]
    refine ⟨?_, ?_, nofun⟩ <;> constructor <;> decide
  · simp only [List.forall_mem_cons]
    exact ⟨.file _, .dir (by decide) nofun nofun, nofun⟩

theorem no_link_treeWithCache (names : List String) (text : String) :
    treeWithCache.root.get? names ≠ some (.link text) := by
  intro h
  cases names with
  | nil => exact nomatch h
  | cons name rest =>
    have hnone : Node.linkPlaces [] treeWithCache.root.entries = [] := by
      simp [treeWithCache, Node.entries, Node.linkPlaces]
    have hmem := Node.mem_linkPlaces h (by simp) []
    rw [hnone] at hmem
    exact absurd hmem List.not_mem_nil

theorem isPlain_digest : Sample.digest.IsPlain := by
  intro bytes
  unfold Sample.digest
  split <;> decide

/-- An empty directory for the cache is secluded from targets that work at the root. -/
theorem secluded_cache {targets : List Target}
    (h : ∀ target ∈ targets, target.workDir = ⟨.root, []⟩) :
    CacheStore.Secluded Sample.digest treeWithCache ⟨.root, ["c"]⟩ ⟨.root, ["c"]⟩ targets := by
  have hmade : (treeWithCache.makeDirs ⟨.root, ["c"]⟩).1 = treeWithCache := by
    rw [isDirAt_cache.makeDirs]
  refine ⟨⟨wellFormed_treeWithCache, ?_, isPlain_digest, ?_⟩, ?_, ?_, ?_⟩
  · intro part hpart
    obtain rfl := List.mem_singleton.mp hpart
    decide
  · intro place _ name _ text
    rw [hmade]
    exact no_link_treeWithCache _ text
  · intro place hplace target htarget base below hbase heq
    rw [hmade] at hplace
    obtain rfl := isDirAt_cache.hasDir.unique hplace
    rw [h target htarget] at hbase
    obtain rfl := isDirAt_root.hasDir.unique hbase.hasDir
    exact ⟨fun hnil => by simp [hnil] at heq, .inl rfl⟩
  · rintro place ⟨hnone, hsome⟩
    rw [hmade, hnone] at hsome
    exact nomatch hsome
  · intro place text htext
    exact absurd htext (no_link_treeWithCache _ text)

end Sample

end LinterSuite
