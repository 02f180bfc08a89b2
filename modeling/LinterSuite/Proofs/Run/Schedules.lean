import LinterSuite.Proofs.Run.Accord
import LinterSuite.Proofs.Run.Completion
import LinterSuite.Proofs.Run.Reports
import LinterSuite.Proofs.Run.Samples
import LinterSuite.Proofs.Run.Targets

/-!
# Schedules do not matter

A run may look at its targets and let its jobs take their steps in any order. If its store is apart
from the files of the targets, if commands change no file and their results depend on nothing but
the call, then every complete schedule comes to the same: the same outcomes, the same report, and a
store with the same contents. All slots are found by going through the targets one after the other,
as if each was alone.

If the directory of the cache is one in which a target works, records that were saved are files like
all others, and it does matter whether a target is looked at before or after a job has ended.

## Main definitions

* `CacheStore.IsApart`: a store apart from the files of some targets
* `Outset.alone`, `Outset.sweep`: what a target comes to as if it was alone, and what several come
  to one after the other
* `RunResult.Agrees`: runs that come to the same

## Main results

* `Pool.Accords.eq_sweep`: the slots of a run whose jobs have ended
* `FileTree.programs_run`: outcomes are those of the linters in order of declaration
* `FileTree.schedule_irrelevant`: every complete schedule comes to the same
* `FileTree.schedule_matters_in_work_dir`: not if the cache is in the directory of a target
-/

namespace LinterSuite

variable {σ : Type}

/-! ### Stores apart from files -/

namespace CacheStore

/-- A store apart from the files of some targets. It keeps their records apart, no selection enters
its directory, and making that directory changes none of their records. -/
structure IsApart (digest : Digest) (t : FileTree) (cacheDir : Path) (targets : List Target)
    (store : CacheStore) : Prop where
  keys : ((targets.map Target.name).map fun name => store.keyOf digest name).Nodup
  secluded : ∀ dir, store = .directory dir → Secluded digest t cacheDir dir targets
  loads : ∀ target ∈ targets, store.load digest (store.prepared t) target.name =
    store.load digest t target.name

theorem isSteady_of_secluded {digest : Digest} {t : FileTree} {cacheDir skippedDir : Path}
    {targets : List Target} {store : CacheStore}
    (h : ∀ dir, store = .directory dir → Secluded digest t cacheDir dir targets)
    (hskipped : t.realPath cacheDir = .ok skippedDir)
    (hdirs : ∀ target ∈ targets, t.isDir target.workDir) (globalExcludes : List String) :
    Outset.IsSteady ⟨digest, [skippedDir], globalExcludes, store, t, targets⟩ := by
  cases store with
  | memory records => exact isSteady_memory rfl
  | directory dir => exact (h dir rfl).isSteady hskipped hdirs globalExcludes

end CacheStore

/-! ### A schedule that keeps targets together -/

/-- The schedule that looks at each of so many targets and runs its job at once. -/
def jobByJob (count : Nat) : List Turn :=
  (List.range count).flatMap fun place => .dispatch :: List.replicate stepsOfJob (.work place)

theorem jobByJob_succ (count : Nat) : jobByJob (count + 1) =
    jobByJob count ++ .dispatch :: List.replicate stepsOfJob (.work count) := by
  rw [jobByJob, List.range_succ, List.flatMap_append, List.flatMap_singleton]
  rfl

theorem count_dispatch_jobByJob (count : Nat) : (jobByJob count).count .dispatch = count := by
  induction count with
  | zero => rfl
  | succ count ih =>
    rw [jobByJob_succ, List.count_append, ih, List.count_cons_self, List.count_replicate]
    rfl

/-- One target with its job after the other is a complete schedule. -/
theorem completes_jobByJob (count : Nat) : Turn.Completes count (jobByJob count) := by
  induction count with
  | zero => exact nofun
  | succ count ih =>
    intro place hplace
    rw [jobByJob_succ]
    rcases Nat.lt_succ_iff_lt_or_eq.mp hplace with hplace | rfl
    · -- An earlier target has its turns in the shorter schedule.
      obtain ⟨before, after, hschedule, hbefore, hafter⟩ := ih place hplace
      refine ⟨before, after ++ _, by rw [hschedule, List.append_assoc], hbefore, ?_⟩
      rw [List.count_append]
      exact Nat.le_add_right_of_le hafter
    · refine ⟨jobByJob place ++ [.dispatch], _, (List.append_cons ..), ?_, ?_⟩
      · rw [List.count_append, count_dispatch_jobByJob]
        exact Nat.lt_succ_self place
      · rw [List.count_replicate_self]

/-! ### One target after the other -/

namespace Outset

variable {a : Outset} {rs : List RunRecord} {target : Target}

/-- A store that keeps the records of the targets apart. -/
def KeepsApart (a : Outset) : Prop := (a.names.map fun name => a.store.keyOf a.digest name).Nodup

theorem KeepsApart.keyOf_ne (h : a.KeepsApart) {name name' : String} (hname : name ∈ a.names)
    (hname' : name' ∈ a.names) (hne : name ≠ name') :
    a.store.keyOf a.digest name ≠ a.store.keyOf a.digest name' :=
  fun heq => hne (List.inj_on_of_nodup_map h hname hname' heq)

/-- The record of a target is the one from before, as long as only others were saved. -/
theorem loadAfter_of_name_ne (hsteady : a.IsSteady) (hkeys : a.KeepsApart)
    (hloads : a.store.load a.digest (a.store.prepared a.tree) target.name =
      a.store.load a.digest a.tree target.name)
    (htarget : target ∈ a.targets) (hrs : ∀ r ∈ rs, r.name ∈ a.names)
    (hothers : ∀ r ∈ rs, r.name ≠ target.name) :
    a.loadAfter rs target.name = a.loadAfter [] target.name := by
  have hname : target.name ∈ a.names := List.mem_map_of_mem htarget
  exact CacheStore.load_saveAll_of_others hsteady.admits hrs hname hloads fun r hr =>
    hkeys.keyOf_ne (hrs r hr) hname (hothers r hr)

/-- The slot of a target at the end of a run whose commands are answered in one way. -/
def finish (a : Outset) (answer : RunCall → Except RunError RawOutput) : Slot → Slot
  | .idle o => .idle o
  | .job j _ => .job j (.ended (j.endIn a.digest a.tree (answer j.call)))

/-- The slot of a target at the end of such a run, as if the target was alone. -/
def alone (a : Outset) (answer : RunCall → Except RunError RawOutput) (target : Target) :
    Except RunFailure Slot :=
  (a.slotAfter [] target).map (a.finish answer)

/-- What targets come to, one after the other, each as if it was alone: slots, the targets that are
left, and why. -/
def sweep (a : Outset) (answer : RunCall → Except RunError RawOutput) :
    List Target → List Slot × List Target × Option RunFailure
  | [] => ([], [], none)
  | target :: rest =>
    match a.slotAfter [] target with
    | .error e => ([], target :: rest, some e)
    | .ok slot =>
      let (slots, left, failure) := a.sweep answer rest
      (a.finish answer slot :: slots, left, failure)

theorem sweep_eq {answer : RunCall → Except RunError RawOutput} {looked left : List Target}
    {slots : List Slot} {failure : Option RunFailure}
    (hslots : List.Forall₂ (fun target slot => a.alone answer target = .ok slot) looked slots)
    (hnone : failure = none → left = [])
    (hsome : ∀ e, failure = some e → ∃ target rest, left = target :: rest ∧
      a.slotAfter [] target = .error e) :
    a.sweep answer (looked ++ left) = (slots, left, failure) := by
  induction hslots with
  | nil =>
    cases failure with
    | none =>
      rw [hnone rfl]
      rfl
    | some e =>
      obtain ⟨target, rest, rfl, hfailure⟩ := hsome e rfl
      rw [List.nil_append, sweep, hfailure]
  | cons hslot _ ih =>
    obtain ⟨start, hstart, rfl⟩ := Except.map_eq_ok_iff.mp hslot
    rw [List.cons_append, sweep, hstart]
    simp only [ih]

/-- What is done about a target is what would be done if it was alone, as long as only records of
others were saved. -/
theorem slotAfter_eq_nil (hsteady : a.IsSteady) (hkeys : a.KeepsApart)
    (hloads : a.store.load a.digest (a.store.prepared a.tree) target.name =
      a.store.load a.digest a.tree target.name)
    (htarget : target ∈ a.targets) (hrs : ∀ r ∈ rs, r.name ∈ a.names)
    (hothers : ∀ r ∈ rs, r.name ≠ target.name) : a.slotAfter rs target = a.slotAfter [] target :=
  hsteady.slotAfter_eq nofun hrs htarget
    (loadAfter_of_name_ne hsteady hkeys hloads htarget hrs hothers)

end Outset

/-- The slot of a job that has ended is the one at the end of a run in which its target is alone. -/
theorem Slot.Accords.alone_eq {a : Outset} {answer : RunCall → Except RunError RawOutput}
    {rs : List RunRecord} {target : Target} {slot : Slot}
    (h : slot.Accords a (fun call result => result = answer call) rs target)
    (hstart : a.slotAfter [] target = .ok slot.start) (hended : slot.rank = stepsOfJob) :
    a.alone answer target = .ok slot := by
  rw [Outset.alone, hstart]
  refine congrArg Except.ok ?_
  cases slot with
  | idle o => rfl
  | job j progress =>
    have hprogress := h.progress j progress rfl
    cases progress with
    | ended outcome =>
      obtain ⟨_, rfl, rfl⟩ := hprogress
      rfl
    | _ => exact nomatch hended

namespace Pool

variable {a : Outset} {answer : RunCall → Except RunError RawOutput} {rs rs' : List RunRecord}
  {p p' : Pool σ}

section

variable {answers : RunCall → Except RunError RawOutput → Prop} (h : p.Accords a answers rs)
  (hsteady : a.IsSteady) (hkeys : a.KeepsApart)
  (hloads : ∀ target ∈ a.targets, a.store.load a.digest (a.store.prepared a.tree) target.name =
    a.store.load a.digest a.tree target.name)

include h hsteady hkeys hloads

/-- Slots start as they would if their targets were alone. -/
theorem Accords.starts_alone : ∃ looked, a.targets = looked ++ p.left ∧
    List.Forall₂ (fun target slot => slot.Accords a answers rs target ∧
      a.slotAfter [] target = .ok slot.start) looked p.slots := by
  obtain ⟨looked, htargets, hslots⟩ := h.slots
  refine ⟨looked, htargets, forall₂_imp_of_mem hslots fun target htarget slot _ haccords =>
    ⟨haccords, ?_⟩⟩
  obtain ⟨older, holder, hothers, hstart⟩ := haccords.start
  replace htarget : target ∈ a.targets := htargets ▸ List.mem_append_left _ htarget
  rw [← hstart, Outset.slotAfter_eq_nil hsteady hkeys (hloads target htarget) htarget
    (fun r hr => h.mem_names r (holder.subset hr)) hothers]

/-- A target that could not be looked at could not be if it was alone. -/
theorem Accords.fails_alone {e : RunFailure} (he : p.failure = some e) :
    ∃ target rest, p.left = target :: rest ∧ target ∈ a.targets ∧
      a.slotAfter [] target = .error e := by
  obtain ⟨target, rest, older, next, htarget, holder, hfailure⟩ := h.exists_refused he
  refine ⟨target, rest, next, htarget, ?_⟩
  rw [← hfailure, Outset.slotAfter_eq_nil hsteady hkeys (hloads target htarget) htarget
    (fun r hr => (holder r hr).1) fun r hr => (holder r hr).2]

end

/-- The slots of a run whose jobs have ended are those that targets come to one after the other. -/
theorem Accords.eq_sweep (h : p.Accords a (fun call result => result = answer call) rs)
    (hdone : p.IsDone) (hsteady : a.IsSteady) (hkeys : a.KeepsApart)
    (hloads : ∀ target ∈ a.targets, a.store.load a.digest (a.store.prepared a.tree) target.name =
      a.store.load a.digest a.tree target.name) :
    a.sweep answer a.targets = (p.slots, p.left, p.failure) := by
  obtain ⟨looked, htargets, hslots⟩ := h.starts_alone hsteady hkeys hloads
  rw [htargets]
  refine Outset.sweep_eq ?_ hdone.looked fun e he => ?_
  · exact forall₂_imp_of_mem hslots fun target _ slot hslot hstart =>
      hstart.1.alone_eq hstart.2 (hdone.ended slot hslot)
  · obtain ⟨target, rest, next, -, hfailure⟩ := h.fails_alone hsteady hkeys hloads he
    exact ⟨target, rest, next, hfailure⟩

/-- Records of different targets are kept apart. -/
theorem Accords.distinct {answers : RunCall → Except RunError RawOutput → Prop}
    (h : p.Accords a answers rs) (hkeys : a.KeepsApart) : a.store.Distinct a.digest rs := by
  obtain ⟨names, hperm, hsublist⟩ := h.sublist_names
  have hnodup : (rs.map fun r => a.store.keyOf a.digest r.name).Nodup := by
    have hnames := (hsublist.map fun name => a.store.keyOf a.digest name).nodup hkeys
    have hmap := (hperm.map fun name => a.store.keyOf a.digest name).nodup_iff.mpr hnames
    rwa [List.map_map] at hmap
  exact List.pairwise_map.mp hnodup

section

variable (h : p.Accords a (fun call result => result = answer call) rs) (hdone : p.IsDone)
  (h' : p'.Accords a (fun call result => result = answer call) rs') (hdone' : p'.IsDone)
  (hsteady : a.IsSteady) (hkeys : a.KeepsApart)
  (hloads : ∀ target ∈ a.targets, a.store.load a.digest (a.store.prepared a.tree) target.name =
    a.store.load a.digest a.tree target.name)

include h hdone h' hdone' hsteady hkeys hloads

/-- Two pools that come from the same start come to the same slots. -/
theorem Accords.slots_eq :
    p'.slots = p.slots ∧ p'.left = p.left ∧ p'.failure = p.failure := by
  -- Both are what the sweep comes to, and the sweep knows of no schedule.
  have heq := (h'.eq_sweep hdone' hsteady hkeys hloads).symm.trans
    (h.eq_sweep hdone hsteady hkeys hloads)
  simpa only [Prod.mk.injEq] using heq

/-- They come to stores with the same contents. -/
theorem Accords.sameContents :
    (∀ name, p'.state.store.load a.digest p'.state.tree name =
        p.state.store.load a.digest p.state.tree name) ∧
      p.state.tree.Alike p'.state.tree := by
  obtain ⟨hslots, -, -⟩ := Accords.slots_eq h hdone h' hdone' hsteady hkeys hloads
  -- The same slots have the same records, although these may be saved in another order.
  have hperm : rs.Perm rs' := h.records.trans (hslots ▸ h'.records.symm)
  have hstore : p.state.store = (a.after rs).1 := congrArg Prod.fst h.saved
  have htree : p.state.tree = (a.after rs).2 := congrArg Prod.snd h.saved
  have hstore' : p'.state.store = (a.after rs').1 := congrArg Prod.fst h'.saved
  have htree' : p'.state.tree = (a.after rs').2 := congrArg Prod.snd h'.saved
  rw [hstore, htree, hstore', htree']
  exact ⟨fun name => CacheStore.load_saveAll_perm hsteady.admits h.mem_names (h.distinct hkeys)
      hperm name,
    CacheStore.alike_saveAll_perm hsteady.admits h.mem_names (h.distinct hkeys) hperm⟩

end

/-- What a pool comes to, and what is reported of it, is read off its slots. -/
theorem outcomes_congr (hslots : p'.slots = p.slots) (hleft : p'.left = p.left)
    (hfailure : p'.failure = p.failure) :
    p'.outcomes = p.outcomes ∧ p'.closing = p.closing := by
  unfold outcomes closing collect
  rw [hslots, hleft, hfailure]
  exact ⟨rfl, rfl⟩

end Pool

/-! ### Whole runs -/

/-- Runs that come to the same: they have the same outcomes, their reports make the same progress
and have the same text, the same records are given back, and files have the same contents. -/
structure RunResult.Agrees (digest : Digest) (r r' : RunResult σ) : Prop where
  outcomes : r'.outcomes = r.outcomes
  milestones : Event.milestones r'.state.log = Event.milestones r.state.log
  report : ∀ format color,
    Event.report format color r'.state.log = Event.report format color r.state.log
  records : ∀ name, r'.state.store.load digest r'.state.tree name =
    r.state.store.load digest r.state.tree name
  files : r.state.tree.Alike r'.state.tree

theorem RunResult.Agrees.refl (digest : Digest) (r : RunResult σ) : r.Agrees digest r :=
  ⟨rfl, rfl, fun _ _ => rfl, fun _ => rfl, .refl _⟩

/-! ### Two linters and a cache -/

namespace Sample

/-- The cache of two linters that work at the root is apart from their files. -/
theorem isApart_two_linters {jobCount : Int} {targets : List Target} {cacheDir skipped : Path}
    (h : treeWithCache.prepare digest homes jobCount
      (config true [linter "a" "/x", linter "b" "/x"]) =
        .ok (targets, cacheDir, skipped)) :
    (CacheStore.directory cacheDir).IsApart digest treeWithCache cacheDir targets := by
  obtain ⟨haims, hcacheDir, -⟩ := FileTree.prepare_spec h
  obtain rfl : cacheDir = ⟨.root, ["c"]⟩ := by
    have hpath : (config true [linter "a" "/x", linter "b" "/x"]).cachePath
        homes = .ok ⟨.root, ["c"]⟩ := by cbv
    exact Except.ok.inj (hcacheDir.symm.trans hpath)
  have hnames : targets.map Target.name = ["a", "b"] := FileTree.names_of_aims haims
  have hdirs : ∀ target ∈ targets, target.workDir = ⟨.root, []⟩ := by
    intro target htarget
    obtain ⟨s, hs, haim⟩ := exists_of_mem_forall₂ haims htarget
    have hworkDir := haim.workDir
    have hnone : s.workDir = none := by
      rcases List.mem_pair.mp hs with rfl | rfl <;> rfl
    rw [LinterSettings.workDirFrom, hnone] at hworkDir
    exact (Except.ok.inj hworkDir).symm
  refine ⟨?_, ?_, ?_⟩
  · rw [hnames]
    decide
  · rintro _ ⟨⟩
    exact secluded_cache hdirs
  · intro target _
    have hprepared : CacheStore.prepared treeWithCache (.directory ⟨.root, ["c"]⟩) =
        treeWithCache := congrArg Prod.fst isDirAt_cache.makeDirs
    exact congrArg (fun t => CacheStore.load _ t target.name (.directory ⟨.root, ["c"]⟩)) hprepared

end Sample

/-! ### Reordered runs -/

namespace FileTree

/-- Outcomes are those of the linters in order of declaration. -/
theorem programs_run (setup : RunSetup σ) (options : RunOptions) (c : Config) (t : FileTree) (x : σ)
    {outcomes : List Outcome} (h : (t.run setup options c x).outcomes = .ok outcomes) :
    outcomes.map (·.program) = c.linters.map (·.name) := by
  cases hprepare : t.prepare setup.digest setup.homes (options.jobCount c) c with
  | error e => simp [run, hprepare] at h
  | ok found =>
    obtain ⟨targets, cacheDir, skipped⟩ := found
    rw [run_eq setup options c t x hprepare] at h
    obtain ⟨-, hleft, hresults⟩ := Pool.forall₂_of_outcomes h
    obtain ⟨opening, -, htraced⟩ := traced_finalPool setup (options.jobCount c) c skipped targets
      ⟨t, x, options.storeFor c cacheDir, []⟩
    obtain ⟨looked, htargets, hslots⟩ := htraced.slots
    obtain rfl : targets = looked := by rw [htargets, hleft, List.append_nil]
    have haims := (prepare_spec hprepare).1
    have hprograms : List.Forall₂ (fun target (o : Outcome) => o.program = target.name) targets
        outcomes := forall₂_comp hslots hresults fun _ _ _ htrace => htrace.program
    rw [← map_eq_map_of_forall₂ hprograms fun _ _ hprogram => hprogram.symm]
    exact names_of_aims haims

theorem prepare_jobCount (digest : Digest) (homes : Homes) (t : FileTree) (c : Config)
    {jobs jobs' : Int} (hjobs : 1 ≤ jobs) (hjobs' : 1 ≤ jobs') :
    t.prepare digest homes jobs' c = t.prepare digest homes jobs c := by
  unfold prepare
  simp only [show ¬ jobs ≤ 0 by omega, show ¬ jobs' ≤ 0 by omega]

/-- Every complete schedule comes to the same, with any number of jobs at once, if the store is
apart from the files of the targets, and if commands change no file and their results depend on the
call only. Outcomes are reported one after the other in order of declaration. -/
theorem schedule_irrelevant (setup : RunSetup σ) (options : RunOptions) (c : Config) (t : FileTree)
    (x : σ) (schedule : Nat → List Turn) (jobs : Option Int)
    (answer : RunCall → Except RunError RawOutput)
    (hgives : setup.runner.Gives fun call result => result = answer call)
    (hcalm : ∀ call, answer call ≠ .error .interrupted)
    (hcomplete : ∀ count, Turn.Completes count (setup.schedule count))
    (hcomplete' : ∀ count, Turn.Completes count (schedule count))
    (hjobs : 1 ≤ options.jobCount c) (hjobs' : 1 ≤ { options with jobs }.jobCount c)
    (hstore : ∀ targets cacheDir skipped,
      t.prepare setup.digest setup.homes (options.jobCount c) c = .ok (targets, cacheDir, skipped) →
        (options.storeFor c cacheDir).IsApart setup.digest t cacheDir targets) :
    (t.run setup options c x).Agrees setup.digest
        (t.run { setup with schedule } { options with jobs } c x) ∧
      ∀ outcomes, (t.run setup options c x).outcomes = .ok outcomes →
        outcomes.map (·.program) = c.linters.map (·.name) ∧
        Event.milestones (t.run setup options c x).state.log =
          Outcome.reportEvents outcomes ++ [.completed outcomes.length] := by
  refine ⟨?_, fun outcomes h => ⟨programs_run setup options c t x h,
    milestones_run setup options c t x h⟩⟩
  have hprepares := prepare_jobCount setup.digest setup.homes t c hjobs hjobs'
  cases hprepare : t.prepare setup.digest setup.homes (options.jobCount c) c with
  | error e =>
    have hprepare' := hprepares.trans hprepare
    unfold run
    simp only [hprepare, hprepare']
    exact .refl _ _
  | ok found =>
    obtain ⟨targets, cacheDir, skipped⟩ := found
    have hprepare' := hprepares.trans hprepare
    have hapart := hstore targets cacheDir skipped hprepare
    obtain ⟨haims, -, hskipped⟩ := prepare_spec hprepare
    let a : Outset := ⟨setup.digest, [skipped], c.globals.excludes, options.storeFor c cacheDir, t,
      targets⟩
    have hsteady : a.IsSteady := CacheStore.isSteady_of_secluded hapart.secluded hskipped
      (isDir_of_aims haims) _
    have hcalm' : setup.runner.Uninterrupted := fun call world heq =>
      hcalm call ((hgives.result call world).symm.trans heq)
    -- Both runs bring all their jobs to an end, and come to the same slots.
    obtain ⟨rs, haccords⟩ := accords_finalPool setup hgives (options.jobCount c) c skipped a
      ⟨rfl, rfl, rfl⟩ hsteady (List.Nodup.of_map _ hapart.keys) x []
    obtain ⟨rs', haccords'⟩ := accords_finalPool { setup with schedule } hgives
      ({ options with jobs }.jobCount c) c skipped a ⟨rfl, rfl, rfl⟩ hsteady
      (List.Nodup.of_map _ hapart.keys) x []
    have hdone := Pool.isDone_finalPool setup hcalm' hcomplete
      (options.jobCount c) c skipped targets ⟨t, x, options.storeFor c cacheDir, []⟩
    have hdone' := Pool.isDone_finalPool { setup with schedule } hcalm' hcomplete'
      ({ options with jobs }.jobCount c) c skipped targets ⟨t, x, options.storeFor c cacheDir, []⟩
    obtain ⟨hslots, hleft, hfailure⟩ :=
      Pool.Accords.slots_eq haccords hdone haccords' hdone' hsteady hapart.keys hapart.loads
    obtain ⟨hrecords, hfiles⟩ :=
      Pool.Accords.sameContents haccords hdone haccords' hdone' hsteady hapart.keys hapart.loads
    obtain ⟨houtcomes, hclosing⟩ := Pool.outcomes_congr hslots hleft hfailure
    have hmilestones := milestones_run_eq setup options c t x hprepare
    have hmilestones' :=
      milestones_run_eq { setup with schedule } { options with jobs } c t x hprepare'
    have hsame := hmilestones'.trans ((congrArg Event.milestones hclosing).trans hmilestones.symm)
    rw [run_eq setup options c t x hprepare,
      run_eq { setup with schedule } { options with jobs } c t x hprepare'] at hsame ⊢
    refine ⟨houtcomes, hsame, fun format color => ?_, hrecords, hfiles⟩
    rw [← Event.report_milestones, hsame, Event.report_milestones]

/-- Two linters with a cache below their directory: it does not matter whether the first job has
ended when the second target is looked at, nor how many jobs may be under way at once. -/
theorem schedule_irrelevant_two_linters :
    (Sample.treeWithCache.run (Sample.passingSetup jobByJob) (Sample.options none)
        (Sample.config true [Sample.linter "a" "/x", Sample.linter "b" "/x"]) ()).Agrees
          Sample.digest
        (Sample.treeWithCache.run (Sample.passingSetup inOrder)
          { Sample.options none with jobs := some 2 }
          (Sample.config true [Sample.linter "a" "/x", Sample.linter "b" "/x"]) ()) := by
  refine (schedule_irrelevant (Sample.passingSetup jobByJob) (Sample.options none)
    (Sample.config true [Sample.linter "a" "/x", Sample.linter "b" "/x"]) Sample.treeWithCache ()
    inOrder (some 2) (fun _ => .ok ⟨0, ""⟩) ⟨fun _ _ => rfl, fun _ _ => rfl⟩ nofun
    completes_jobByJob completes_inOrder (by decide) (by decide) ?_).1
  intro targets cacheDir skipped hprepare
  exact Sample.isApart_two_linters hprepare

/-- The second linter works in the directory of the cache. If it is looked at after the job of the
first has ended, the entry that was saved is one of its files. -/
theorem schedule_matters_in_work_dir :
    (Sample.passing.Gives fun _ result => result = .ok ⟨0, ""⟩) ∧
      (∀ count, Turn.Completes count (jobByJob count)) ∧
      (∀ count, Turn.Completes count (inOrder count)) ∧
      (Sample.treeWithCache.run (Sample.passingSetup jobByJob) (Sample.options none)
        (Sample.config true
          [Sample.linter "a" "/x", { Sample.linter "b" "/x" with workDir := some "c" }])
        ()).outcomes.map (·.map (·.files)) = .ok [["x"], ["a.json"]] ∧
      (Sample.treeWithCache.run (Sample.passingSetup inOrder) (Sample.options none)
        (Sample.config true
          [Sample.linter "a" "/x", { Sample.linter "b" "/x" with workDir := some "c" }])
        ()).outcomes.map (·.map (·.files)) = .ok [["x"], []] := by
  refine ⟨⟨fun _ _ => rfl, fun _ _ => rfl⟩, completes_jobByJob, completes_inOrder, ?_, ?_⟩
  · cbv
  · cbv

end FileTree

end LinterSuite
