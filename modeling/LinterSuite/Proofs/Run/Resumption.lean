import LinterSuite.Proofs.Run.Schedules

/-!
# What a run leaves behind

A run that changes no file leaves a tree behind that has only grown by its own records, and a store
with these records in it. So the next run finds the same targets and selects the same files, its
store is out of the way again, and the records of the first run are given back.

## Main definitions

* `Outset.resume`: what the next run starts from
* `FileTree.Readable`: files that can be recorded
* `Outcome.Left`: what a run has left behind of a linter
* `Outcome.next`: what the next run does about it

## Main results

* `CacheStore.Admits.saveAll`: a store in which records were saved admits more of them
* `Outset.IsSteady.resume`: the store of the next run is out of the way
* `Outset.loadAfter_of_load`: a record is given back as long as only others are saved
* `FileTree.prepare_grows`: the next run finds the same targets
* `Pool.Accords.left`: what a run has left behind of its linters
* `Outcome.Left.slotAfter_resume`: an outcome decides what the next run does about its linter
-/

namespace LinterSuite

/-! ### Stores after something was saved -/

namespace CacheStore

variable {digest : Digest} {t : FileTree} {dir : Path} {names : List String} {rs : List RunRecord}
  {store : CacheStore}

theorem saveAll_fst_directory (digest : Digest) (t : FileTree) (dir : Path) (rs : List RunRecord) :
    ((directory dir).saveAll digest t rs).1 = .directory dir := by
  induction rs with
  | nil => rfl
  | cons r rs ih => rw [saveAll, ih, save]

/-- A store keeps its records under the same keys. -/
theorem keyOf_saveAll (digest : Digest) (t : FileTree) (store : CacheStore) (rs : List RunRecord)
    (name : String) :
    (store.saveAll digest t rs).1.keyOf digest name = store.keyOf digest name := by
  cases store with
  | memory records =>
    rw [saveAll_memory]
    rfl
  | directory dir => rw [saveAll_fst_directory]

/-- A directory that could be made, or not, is made no further after records were written in it. -/
theorem makeDirs_writeAll (h : Lodges digest t dir names) (hrs : ∀ r ∈ rs, r.name ∈ names) :
    ((writeAll digest (t.makeDirs dir).1 dir rs).makeDirs dir).1 =
      writeAll digest (t.makeDirs dir).1 dir rs := by
  rcases h.cases with hnothing | ⟨place, hat⟩
  · rw [hnothing]
    -- What could not be made then cannot be made now.
    obtain ⟨result, hagain, -⟩ := FileTree.makeDirs_again h.formed h.dirPlain rfl
    rw [hagain]
  · have hgrows := grows_writeAll hat h.digestPlain fun r hr =>
      h.unlinked place hat.hasDir _ (hrs r hr)
    rw [(hat.grows hgrows).makeDirs]

/-- The directory is in the same place before and after records were written in it. -/
theorem hasDir_of_writeAll (h : Lodges digest t dir names) (hrs : ∀ r ∈ rs, r.name ∈ names)
    {place : List String} (hdir : (writeAll digest (t.makeDirs dir).1 dir rs).HasDir dir place) :
    (t.makeDirs dir).1.HasDir dir place := by
  rcases h.cases with hnothing | ⟨place', hat⟩
  · rwa [hnothing] at hdir
  · have hgrows := grows_writeAll hat h.digestPlain fun r hr =>
      h.unlinked place' hat.hasDir _ (hrs r hr)
    obtain rfl := hdir.unique (hat.grows hgrows).hasDir
    exact hat.hasDir

/-- A store in which records were saved admits more of them. -/
theorem Admits.saveAll (h : store.Admits digest t names) (hrs : ∀ r ∈ rs, r.name ∈ names) :
    (store.saveAll digest t rs).1.Admits digest (store.saveAll digest t rs).2 names := by
  cases store with
  | memory records =>
    rw [saveAll_memory]
    trivial
  | directory dir =>
    have h : Lodges digest t dir names := h
    by_cases hne : rs = []
    · subst hne
      exact h
    have hgrows := grows_saveAll h hrs
    rw [saveAll_directory h.formed h.dirPlain hne] at hgrows ⊢
    refine ⟨h.formed.grows hgrows, h.dirPlain, h.digestPlain, ?_⟩
    rw [makeDirs_writeAll h hrs]
    intro place hplace name hname text htext
    have hmade : t.Grows (fun _ => True) (fun _ => False) (t.makeDirs dir).1 :=
      FileTree.grows_makeDirs h.formed h.dirPlain rfl
    -- Neither making the directory nor writing in it makes a link.
    exact h.unlinked place (hasDir_of_writeAll h hrs hplace) name hname text
      ((hmade.sameLinks _ text).mpr ((hgrows.sameLinks _ text).mp htext))

/-- Saving records does not change where the directory is. -/
theorem realPath_saveAll (h : Lodges digest t dir names) (hrs : ∀ r ∈ rs, r.name ∈ names)
    (hat : rs ≠ [] → ∃ place, (t.makeDirs dir).1.IsDirAt dir place) :
    ((directory dir).saveAll digest t rs).2.realPath dir = t.realPath dir := by
  by_cases hne : rs = []
  · rw [hne]
    rfl
  obtain ⟨place, hat⟩ := hat hne
  have hgrows := grows_saveAll h hrs
  -- The directory is there afterwards, and the links on the way are those from before.
  have hat' : ((directory dir).saveAll digest t rs).2.IsDirAt dir place := by
    rw [saveAll_directory h.formed h.dirPlain hne]
    exact hat.grows (grows_writeAll hat h.digestPlain fun r hr =>
      h.unlinked place hat.hasDir _ (hrs r hr))
  have hnamed := hgrows.wellNamed h.formed.named
  rw [hat'.realPath hnamed, FileTree.realPath_of_hasDir hgrows.sameLinks hgrows.cwd hat'.hasDir
    (FileTree.LeadsTo.not_mem_empty hnamed hat'.hasDir) hat'.hasNull]

end CacheStore

/-! ### The next run -/

namespace Outset

variable {a : Outset} {rs : List RunRecord} {name : String}

/-- What the next run starts from, after some records were saved. -/
def resume (a : Outset) (rs : List RunRecord) : Outset :=
  { a with store := (a.after rs).1, tree := (a.after rs).2 }

theorem after_resume (a : Outset) (rs rs' : List RunRecord) :
    (a.resume rs).after rs' = a.after (rs' ++ rs) :=
  (CacheStore.saveAll_append a.digest a.store a.tree rs' rs).symm

theorem KeepsApart.resume (h : a.KeepsApart) (rs : List RunRecord) : (a.resume rs).KeepsApart := by
  have hkeys : (a.resume rs).store.keyOf a.digest = a.store.keyOf a.digest :=
    funext (CacheStore.keyOf_saveAll a.digest a.tree a.store rs)
  unfold KeepsApart
  change (a.names.map fun name => (a.resume rs).store.keyOf a.digest name).Nodup
  rw [hkeys]
  exact h

/-- The store of the next run is out of the way as well. -/
theorem IsSteady.resume (h : a.IsSteady) (hrs : ∀ r ∈ rs, r.name ∈ a.names) :
    (a.resume rs).IsSteady := by
  have hall : ∀ rs', (∀ r ∈ rs', r.name ∈ a.names) → ∀ r ∈ rs' ++ rs, r.name ∈ a.names :=
    fun rs' hrs' => List.forall_mem_append.mpr ⟨hrs', hrs⟩
  refine ⟨h.admits.saveAll hrs, fun rs' hrs' target htarget => ?_,
    fun rs' hrs' target htarget files hfiles p hp => ?_⟩
  · rw [after_resume]
    exact (h.filesIn _ (hall rs' hrs') target htarget).trans (h.filesIn rs hrs target htarget).symm
  · have hfiles : a.filesOf target = .ok files :=
      (h.filesIn rs hrs target htarget).symm.trans hfiles
    rw [after_resume]
    exact (h.stat _ (hall rs' hrs') target htarget files hfiles p hp).trans
      (h.stat rs hrs target htarget files hfiles p hp).symm

/-- The same files are selected in the next run. -/
theorem IsSteady.filesOf_resume (h : a.IsSteady) (hrs : ∀ r ∈ rs, r.name ∈ a.names)
    {target : Target} (htarget : target ∈ a.targets) :
    (a.resume rs).filesOf target = a.filesOf target := h.filesIn rs hrs target htarget

/-- A record is given back as long as only records of others are saved. -/
theorem loadAfter_of_load (hadmits : a.store.Admits a.digest a.tree a.names)
    (hkeys : a.KeepsApart) (hname : name ∈ a.names) (hrs : ∀ r ∈ rs, r.name ∈ a.names)
    (hothers : ∀ r ∈ rs, r.name ≠ name) {r : RunRecord}
    (hload : a.store.load a.digest a.tree name = .ok (some r)) :
    a.loadAfter rs name = .ok (some r) := by
  by_cases hne : rs = []
  · rw [hne]
    exact hload
  · have hothers : ∀ r ∈ rs, a.store.keyOf a.digest r.name ≠ a.store.keyOf a.digest name :=
      fun r hr => hkeys.keyOf_ne (hrs r hr) hname (hothers r hr)
    exact (CacheStore.load_saveAll_of_not_mem hadmits hrs hname hne hothers).trans
      (CacheStore.load_prepared hadmits hload)

end Outset

/-! ### Targets on a tree that has grown -/

namespace FileTree

variable {digest : Digest} {homes : Homes} {t t' : FileTree} {root : Path}
  {made written : List String → Prop}

theorem IsDirAt.isDir {p : Path} {place : List String} (h : t.IsDirAt p place) : t.isDir p := by
  obtain ⟨mtime, es, hget⟩ := h.hasDir.exists_dir
  have hstat : t.stat p = .ok (.dir mtime es) :=
    lookup_eq_ok_iff.mpr ⟨place, locate_eq_ok_iff.mpr ⟨h.hasNull, h.short, h.hasDir.locateFrom_eq⟩,
      hget⟩
  simp only [FileTree.isDir, hstat]

/-- A tree that has grown has the same target for a linter. -/
theorem Aims.grows {s : LinterSettings} {target : Target} (h : t.Aims digest homes root s target)
    (hgrows : t.Grows made written t') (hnamed : t.root.WellNamed) :
    t'.Aims digest homes root s target := by
  obtain ⟨place, hat⟩ := exists_isDirAt_of_isDir h.isDir
  have hat' := hat.grows hgrows
  refine ⟨h.settings, h.workDir, hat'.isDir, h.grammars, ?_⟩
  have hfingerprint := h.fingerprint
  unfold FileTree.fingerprint at hfingerprint ⊢
  rw [hat.realPath hnamed] at hfingerprint
  rw [hat'.realPath (hgrows.wellNamed hnamed)]
  exact hfingerprint

/-- The next run finds the same targets if the directory of the cache is where it was. -/
theorem prepare_grows {jobCount : Int} {c : Config} {targets : List Target}
    {cacheDir skipped : Path}
    (h : t.prepare digest homes jobCount c = .ok (targets, cacheDir, skipped))
    (hgrows : t.Grows made written t') (hnamed : t.root.WellNamed)
    (hskipped : t'.realPath cacheDir = t.realPath cacheDir) :
    t'.prepare digest homes jobCount c = .ok (targets, cacheDir, skipped) := by
  obtain ⟨haims, hcacheDir, hreal, hjobs⟩ := prepare_eq_ok_iff.mp h
  exact prepare_eq_ok_iff.mpr ⟨haims.imp fun _ _ haim => haim.grows hgrows hnamed, hcacheDir,
    hskipped.trans hreal, hjobs⟩

end FileTree

/-! ### Records of a run -/

/-- Files that can be recorded: they can be observed, and their times are no longer than what is
read back. -/
structure FileTree.Readable (t : FileTree) (files : List Path) (checkHash : Bool) : Prop where
  observable : t.Observable files checkHash
  short : ∀ p ∈ files, ∀ m, t.mtime p = .ok m →
    (Nat.toDigits 10 m.natAbs).length ≤ Text.numeralLimit

namespace CacheStore

variable {digest : Digest} {t : FileTree} {name fingerprint : String} {files : List Path}
  {succeeded checkHash : Bool} {r : RunRecord}

/-- Nothing has changed since a run that passed was recorded. -/
theorem verdictOf_recordOf
    (h : recordOf digest t name files succeeded checkHash fingerprint = .ok r)
    (hobservable : t.Observable files checkHash) :
    verdictOf digest t files checkHash fingerprint (some r) =
      .ok (if succeeded then .unchanged else .noSuccess) := by
  obtain ⟨-, hfingerprint, hsucceeded, hsnapshot⟩ := recordOf_spec h
  cases succeeded with
  | false =>
    have hfailed : r.succeeded = false := by simpa using hsucceeded
    simp [verdictOf, hfailed]
  | true =>
    have hpassed : r.succeeded := hsucceeded.mpr ⟨rfl, FileTree.exists_snapshot_iff.mpr hobservable⟩
    obtain ⟨s, hs, hfiles, hlatest, hcontent⟩ := hsnapshot hpassed
    rw [if_pos rfl]
    refine verdictOf_eq_unchanged_iff.mpr ⟨hpassed, hfingerprint, s, hs, hfiles.symm, ?_⟩
    unfold Snapshot.changedSince
    split
    · simp [hcontent]
    · simp [hlatest]

/-- The time of a record is that of one of the files, or zero. -/
theorem isShort_of_recordOf
    (h : recordOf digest t name files succeeded checkHash fingerprint = .ok r)
    (hreadable : t.Readable files checkHash) : r.IsShort := by
  have hzero : (Nat.toDigits 10 0).length ≤ Text.numeralLimit := by decide
  unfold recordOf at h
  split at h
  · obtain ⟨snapshot, hsnapshot, h⟩ := Except.bind_eq_ok_iff.mp h
    cases snapshot with
    | none =>
      obtain rfl := Except.ok.inj h
      exact hzero
    | some s =>
      obtain rfl := Except.ok.inj h
      obtain ⟨-, ⟨ms, hms, hlatest⟩, -⟩ := FileTree.snapshot_eq_ok_some_iff.mp hsnapshot
      unfold RunRecord.IsShort
      dsimp only
      rcases FileTree.latestTime_of_mtimes hms with ⟨-, hm⟩ | ⟨⟨p, hp, hm⟩, -⟩
      · rw [hlatest, hm]
        exact hzero
      · rw [hlatest]
        exact hreadable.short p hp _ hm
  · obtain rfl := Except.ok.inj h
    exact hzero

end CacheStore

/-- What is done about a target whose files are selected. -/
theorem FileTree.slot_of_files {digest : Digest} {t : FileTree} {store : CacheStore}
    {skipped : List Path} {globalExcludes : List String} {target : Target} {files : List String}
    (h : target.filesIn skipped globalExcludes t = .ok files) :
    (t.slot digest store skipped globalExcludes target).2 =
      if files = [] then .ok (.idle (.idle target.name .skipped []))
      else match store.verdict digest t target.name (Job.paths ⟨target, files⟩)
          target.settings.checkHash target.fingerprint with
        | .error e => .error e.toRunFailure
        | .ok v => .ok (if v = .unchanged then .idle (.idle target.name .cached files)
            else .job ⟨target, files⟩ .waiting) := by
  obtain ⟨selection, hselect, rfl⟩ := Except.map_eq_ok_iff.mp h
  unfold slot
  simp only [hselect, List.isEmpty_iff]
  split
  · rfl
  · cases store.verdict digest t target.name (Job.paths ⟨target, selection.files⟩)
      target.settings.checkHash target.fingerprint with
    | error e => rfl
    | ok v => cases v <;> rfl

/-! ### What the next run does -/

namespace Outcome

/-- What the next run does about a linter with an outcome, if nothing changes in between. -/
def next (target : Target) (o : Outcome) : Slot :=
  match o.status with
  | .skipped => .idle (.idle target.name .skipped [])
  | .ok | .cached => .idle (.idle target.name .cached o.files)
  | .failed | .error => .job ⟨target, o.files⟩ .waiting

/-- What a run has left behind of a linter with an outcome. If it had files, there is a record, and
since then nothing has changed, unless the linter did not pass. -/
structure Left (a : Outset) (rs : List RunRecord) (target : Target) (o : Outcome) : Prop where
  program : o.program = target.name
  files : a.filesOf target = .ok o.files
  skipped : o.files = [] ↔ o.status = .skipped
  record : o.files ≠ [] → ∃ r, a.loadAfter rs target.name = .ok (some r) ∧
    CacheStore.verdictOf a.digest a.tree (Job.paths ⟨target, o.files⟩) target.settings.checkHash
      target.fingerprint (some r) = .ok (if o.succeeded then .unchanged else .noSuccess)

/-- An outcome decides what the next run does about its linter, as long as that run saves records of
others only. -/
theorem Left.slotAfter_resume {a : Outset} {rs newer : List RunRecord} {target : Target}
    {o : Outcome} (h : o.Left a rs target) (hsteady : a.IsSteady) (hkeys : a.KeepsApart)
    (hrs : ∀ r ∈ rs, r.name ∈ a.names) (htarget : target ∈ a.targets)
    (hnewer : ∀ r ∈ newer, r.name ∈ a.names) (hothers : ∀ r ∈ newer, r.name ≠ target.name) :
    (a.resume rs).slotAfter newer target = .ok (o.next target) := by
  have hsteady' := hsteady.resume hrs
  have hfiles : target.filesIn a.skipped a.globalExcludes ((a.resume rs).after newer).2 =
      .ok o.files :=
    (hsteady'.filesIn newer hnewer target htarget).trans
      ((hsteady.filesOf_resume hrs htarget).trans h.files)
  refine (FileTree.slot_of_files hfiles).trans ?_
  by_cases hempty : o.files = []
  · rw [if_pos hempty, next, h.skipped.mp hempty]
  · obtain ⟨r, hload, hverdict⟩ := h.record hempty
    -- The next run finds the same record, and compares it with the same files.
    have hload' : (a.resume rs).loadAfter newer target.name = .ok (some r) :=
      Outset.loadAfter_of_load hsteady'.admits (hkeys.resume rs) (List.mem_map_of_mem htarget)
        hnewer hothers hload
    have hsame : ∀ p ∈ Job.paths ⟨target, o.files⟩,
        ((a.resume rs).after newer).2.stat p = a.tree.stat p := by
      rw [Outset.after_resume]
      exact hsteady.stat _ (List.forall_mem_append.mpr ⟨hnewer, hrs⟩) target htarget o.files h.files
    have hverdict' : ((a.resume rs).after newer).1.verdict (a.resume rs).digest
        ((a.resume rs).after newer).2 target.name (Job.paths ⟨target, o.files⟩)
        target.settings.checkHash target.fingerprint =
          .ok (if o.succeeded then .unchanged else .noSuccess) := by
      rw [← CacheStore.verdictOf_congr hsame] at hverdict
      unfold CacheStore.verdict
      unfold Outset.loadAfter at hload'
      rw [hload']
      exact congrArg (Except.mapError CacheError.path) hverdict
    rw [if_neg hempty, hverdict']
    have hran : o.status ≠ .skipped := mt h.skipped.mpr hempty
    unfold next Outcome.succeeded
    cases hstatus : o.status with
    | skipped => exact absurd hstatus hran
    | _ => rfl

end Outcome

/-! ### What a run leaves behind -/

namespace Job

variable {digest : Digest} {j : Job} {t : FileTree} {result : Except RunError RawOutput}
  {o : Outcome}

/-- A job with an outcome delivers the result of its command, and can be recorded. -/
theorem delivers_of_endIn (h : .ok o = j.endIn digest t result) :
    j.Delivers result o ∧ ∃ r, j.recordIn digest t o = .ok r := by
  unfold endIn at h
  split at h
  · exact nomatch h
  · next houtcome =>
    split at h
    · exact nomatch h
    · next r hrecord =>
      obtain rfl := Except.ok.inj h
      exact ⟨delivers_of_outcome houtcome, r, hrecord⟩

end Job

namespace Slot.Accords

variable {a : Outset} {answers : RunCall → Except RunError RawOutput → Prop} {rs : List RunRecord}
  {target : Target} {o : Outcome}

/-- What a run has left behind of a linter that it did not run. -/
theorem left_of_idle (h : Slot.Accords a answers rs target (.idle o)) (hsteady : a.IsSteady)
    (hkeys : a.KeepsApart) (hrs : ∀ r ∈ rs, r.name ∈ a.names) (htarget : target ∈ a.targets)
    (hothers : ∀ r ∈ rs, r.name ≠ target.name) : o.Left a rs target := by
  obtain ⟨older, holder, -, -, hfound⟩ := h.found
  have holder' : ∀ r ∈ older, r.name ∈ a.names := fun r hr => hrs r (holder.subset hr)
  have hfilesIn := hsteady.filesIn older holder' target htarget
  cases hfound with
  | nothing select empty =>
    rw [Target.filesIn, select] at hfilesIn
    exact ⟨rfl, by rw [← hfilesIn, ← empty]; rfl, by simp [Outcome.idle], fun hne => absurd rfl hne⟩
  | @spared selection select nonempty verdict =>
    rw [Target.filesIn, select] at hfilesIn
    have hfiles : a.filesOf target = .ok selection.files := hfilesIn.symm
    refine ⟨rfl, hfiles, by simpa [Outcome.idle] using nonempty, fun _ => ?_⟩
    obtain ⟨r, hload, hunchanged⟩ := CacheStore.verdict_eq_unchanged_iff.mp verdict
    have hstat := hsteady.stat older holder' target htarget _ hfiles
    rw [CacheStore.verdictOf_congr hstat] at hunchanged
    refine ⟨r, ?_, hunchanged⟩
    -- Since the target was looked at, records of others were saved only.
    obtain ⟨newer, rfl⟩ := holder
    have hnewer := List.forall_mem_append.mp hrs
    rw [Outset.loadAfter, ← Outset.after_resume]
    exact Outset.loadAfter_of_load (hsteady.resume holder').admits (hkeys.resume older)
      (List.mem_map_of_mem htarget) hnewer.1 (List.forall_mem_append.mp hothers).1 hload

/-- What a run has left behind of a linter that it ran. -/
theorem left_of_job {j : Job} {progress : JobState}
    (h : Slot.Accords a answers rs target (.job j progress)) (hsteady : a.IsSteady)
    (hrs : ∀ r ∈ rs, r.name ∈ a.names) (htarget : target ∈ a.targets)
    (hresult : (Slot.job j progress).result = .ok o)
    (hrecorded : ∀ r, Slot.record? a.digest a.tree (.job j progress) = some r → r ∈ rs)
    (hdistinct : a.store.Distinct a.digest rs)
    (htakes : a.store.Takes a.digest a.tree target.name)
    (hreadable : a.tree.Readable j.paths target.settings.checkHash) : o.Left a rs target := by
  have hfiles := h.filesOf_eq hsteady hrs htarget
  -- A job was made of it, so there are files.
  have hnonempty : j.files ≠ [] := by
    obtain ⟨older, -, -, -, hfound⟩ := h.found
    cases hfound with
    | due _ nonempty => exact nonempty
  obtain rfl := h.target_eq
  have hprogress := h.progress j progress rfl
  cases progress with
  | ended ended =>
    obtain rfl : ended = .ok o := hresult
    obtain ⟨result, -, hended⟩ := hprogress
    obtain ⟨hdelivers, r, hrecord⟩ := Job.delivers_of_endIn hended
    have hr : r ∈ rs := hrecorded r (by rw [Slot.record?, hrecord, Except.toOption])
    have hname : r.name = j.target.name := (CacheStore.recordOf_spec hrecord).1
    have hofiles : o.files = j.files := hdelivers.files
    refine ⟨hdelivers.program, hofiles ▸ hfiles, ?_, fun _ => ⟨r, ?_, ?_⟩⟩
    · rw [hofiles]
      exact iff_of_false hnonempty hdelivers.status.1
    · rw [← hname] at htakes ⊢
      exact CacheStore.load_saveAll_self hsteady.admits hrs hdistinct hr htakes
        (CacheStore.isShort_of_recordOf hrecord hreadable)
    · rw [hofiles]
      exact CacheStore.verdictOf_recordOf hrecord hreadable.observable
  | _ => cases hresult

end Slot.Accords

namespace Pool.Accords

variable {σ : Type} {a : Outset} {answers : RunCall → Except RunError RawOutput → Prop}
  {rs : List RunRecord} {p : Pool σ}

/-- Slots beside their targets, each with the only record of its linter, if there is one. -/
theorem own_records (h : p.Accords a answers rs) (hdistinct : a.names.Nodup) (hleft : p.left = []) :
    List.Forall₂ (fun target slot => slot.Accords a answers rs target ∧
      ∀ r ∈ rs, r.name = target.name → slot.record? a.digest a.tree = some r)
      a.targets p.slots := by
  obtain ⟨looked, htargets, hslots⟩ := h.slots
  rw [hleft, List.append_nil] at htargets
  rw [← htargets] at hslots
  obtain ⟨hlength, hpairs⟩ := List.forall₂_iff_zip.mp hslots
  have hnames : ((a.targets.zip p.slots).map fun pair => pair.1.name).Nodup := by
    have hfst : (a.targets.zip p.slots).map Prod.fst = a.targets :=
      List.map_fst_zip (Nat.le_of_eq hlength)
    rw [Outset.names, ← hfst, List.map_map] at hdistinct
    exact hdistinct
  refine List.forall₂_iff_zip.mpr ⟨hlength, fun {target slot} hpair => ⟨hpairs hpair, ?_⟩⟩
  intro r hr hname
  obtain ⟨slot', hslot', hrecord⟩ := List.mem_filterMap.mp (h.records.mem_iff.mp hr)
  obtain ⟨target', -, hpair'⟩ := exists_of_mem_forall₂
    (List.forall₂_iff_zip.mpr ⟨hlength, fun hpair => hpair⟩) hslot'
  obtain ⟨j, progress, rfl, hname'⟩ := Slot.name_of_record? hrecord
  -- Targets with one name are one, and so are their slots.
  have heq : target'.name = target.name := by
    rw [← hname, hname', Job.name, (hpairs hpair').target_eq]
  obtain ⟨rfl, rfl⟩ := Prod.mk.inj (List.inj_on_of_nodup_map hnames hpair' hpair heq)
  exact hrecord

/-- What a run has left behind of its linters. -/
theorem left {outcomes : List Outcome} (h : p.Accords a answers rs) (hsteady : a.IsSteady)
    (hkeys : a.KeepsApart) (houtcomes : p.outcomes = .ok outcomes)
    (htakes : ∀ target ∈ a.targets, a.store.Takes a.digest a.tree target.name)
    (hreadable : ∀ target ∈ a.targets, ∀ files, a.filesOf target = .ok files →
      a.tree.Readable (Job.paths ⟨target, files⟩) target.settings.checkHash) :
    List.Forall₂ (Outcome.Left a rs) a.targets outcomes := by
  obtain ⟨-, hleft, hresults⟩ := forall₂_of_outcomes houtcomes
  have hslots := h.own_records (List.Nodup.of_map _ hkeys) hleft
  have hrs := h.mem_names
  refine forall₂_comp (forall₂_imp_of_mem (S := fun target slot => ∀ o, slot.result = .ok o →
    o.Left a rs target) hslots ?_) hresults fun _ _ o hleft hresult => hleft o hresult
  rintro target htarget slot hslot ⟨haccords, hown⟩ o hresult
  cases slot with
  | idle o' =>
    obtain rfl : o' = o := Except.ok.inj hresult
    exact haccords.left_of_idle hsteady hkeys hrs htarget fun r hr hname =>
      nomatch hown r hr hname
  | job j progress =>
    have hfiles := haccords.filesOf_eq hsteady hrs htarget
    have hpaths := hreadable target htarget j.files hfiles
    obtain rfl := haccords.target_eq
    exact haccords.left_of_job hsteady hrs htarget hresult
      (fun r hr => h.records.mem_iff.mpr (List.mem_filterMap.mpr ⟨_, hslot, hr⟩))
      (h.distinct hkeys) (htakes _ htarget) hpaths

end Pool.Accords

end LinterSuite
