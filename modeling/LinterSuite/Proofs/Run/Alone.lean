import LinterSuite.Proofs.Run.Calls
import LinterSuite.Proofs.Run.Resumption

/-!
# Linters on their own

If the store of a run is apart from the files of its targets, what a linter comes to is what it
would come to if it was alone. So a run of some linters has the outcomes that these linters have in
a run of all of them, and leaves the same records behind.

If the directory of the cache is one in which a linter works, the records of other linters are files
like all others, and it does matter whether these linters are run as well.

## Main definitions

* `Config.only`, `Outset.only`: the configuration of some linters, and what a run of their targets
  starts from
* `Outset.Ends`: the outcome of a target that is alone

## Main results

* `Pool.Accords.outcomes_eq_ok_iff`: outcomes are those of targets that are alone
* `Pool.Accords.mem_records_iff`: records are those of targets that are alone
* `FileTree.selected_run_exact`: what a run of some linters comes to
* `FileTree.selection_matters_in_work_dir`: not if the cache is in the directory of a linter
-/

namespace LinterSuite

variable {σ : Type}

/-! ### Configurations of some linters -/

namespace Config

theorem mem_of_mem_distinct {names : List String} {name : String} (h : name ∈ distinct names) :
    name ∈ names := by
  induction names with
  | nil => exact h
  | cons first names ih =>
    rcases List.mem_cons.mp h with rfl | h
    · exact List.mem_cons_self
    · exact List.mem_cons_of_mem _ (ih (List.mem_filter.mp h).1)

/-- The configuration of the linters with some names. -/
def only (c : Config) (names : List String) : Config :=
  { c with linters := c.linters.filter fun l => names.contains l.name }

/-- Linters of a configuration can be selected by their names. -/
theorem select_of_known {c : Config} {names : List String} (hne : names ≠ [])
    (hknown : ∀ name ∈ names, name ∈ c.linters.map (·.name)) :
    c.select names = .ok (c.only names) := by
  have hunknown : (distinct names).filter (fun n => !(c.linters.any (·.name == n))) = [] := by
    refine List.filter_eq_nil_iff.mpr fun name hname => ?_
    obtain ⟨l, hl, rfl⟩ := List.mem_map.mp (hknown name (mem_of_mem_distinct hname))
    have hany : c.linters.any (·.name == l.name) := List.any_eq_true.mpr ⟨l, hl, beq_self_eq_true _⟩
    simp [hany]
  simp [select, only, hne, hunknown]

end Config

/-! ### Some of the targets -/

namespace Outset

variable {a : Outset} {answer : RunCall → Except RunError RawOutput} {targets : List Target}
  {target : Target} {slot : Slot} {o : Outcome} {r : RunRecord}

/-- What a run of some of the targets starts from. -/
def only (a : Outset) (targets : List Target) : Outset := { a with targets }

theorem KeepsApart.only (h : a.KeepsApart) (hsub : targets.Sublist a.targets) :
    (a.only targets).KeepsApart :=
  ((hsub.map Target.name).map fun name => a.store.keyOf a.digest name).nodup h

/-- A store that is out of the way of some targets is out of the way of some of them. -/
theorem IsSteady.only (h : a.IsSteady) (hsub : targets.Sublist a.targets) :
    (a.only targets).IsSteady := by
  have hnames : ∀ name ∈ (a.only targets).names, name ∈ a.names := fun name hname =>
    (hsub.map Target.name).subset hname
  exact ⟨h.admits.mono hnames,
    fun rs hrs target htarget => h.filesIn rs (fun r hr => hnames _ (hrs r hr)) target
      (hsub.subset htarget),
    fun rs hrs target htarget => h.stat rs (fun r hr => hnames _ (hrs r hr)) target
      (hsub.subset htarget)⟩

/-- The outcome of a target that is alone. -/
def Ends (a : Outset) (answer : RunCall → Except RunError RawOutput) (target : Target)
    (o : Outcome) : Prop :=
  ∃ slot, a.alone answer target = .ok slot ∧ slot.result = .ok o

/-- A target that is alone is not run, or its job comes to an end. -/
theorem alone_cases (h : a.alone answer target = .ok slot) :
    (∃ status files, slot = .idle (.idle target.name status files)) ∨
      ∃ files, slot = .job ⟨target, files⟩ (.ended (Job.endIn a.digest ⟨target, files⟩ a.tree
        (answer (Job.call ⟨target, files⟩)))) := by
  obtain ⟨start, hstart, rfl⟩ := Except.map_eq_ok_iff.mp h
  have hfound : target.Found a.digest (a.after []).2 (a.after []).1 a.skipped a.globalExcludes
      (.ok start) := by
    rw [← hstart]
    exact FileTree.found_slot ..
  cases hfound with
  | nothing | spared => exact .inl ⟨_, _, rfl⟩
  | due => exact .inr ⟨_, rfl⟩

theorem Ends.program (h : a.Ends answer target o) : o.program = target.name := by
  obtain ⟨slot, halone, hresult⟩ := h
  rcases alone_cases halone with ⟨status, files, rfl⟩ | ⟨files, rfl⟩
  · obtain rfl := Except.ok.inj hresult
    rfl
  · exact (Job.delivers_of_endIn hresult.symm).1.program

theorem name_of_alone (h : a.alone answer target = .ok slot)
    (hr : slot.record? a.digest a.tree = some r) : r.name = target.name := by
  rcases alone_cases h with ⟨status, files, rfl⟩ | ⟨files, rfl⟩
  · exact nomatch hr
  · obtain ⟨j, progress, hslot, hname⟩ := Slot.name_of_record? hr
    obtain ⟨rfl, -⟩ := Slot.job.inj hslot
    exact hname

end Outset

/-! ### Pools of targets that are as if they were alone -/

/-- The user did not interrupt a job that has an outcome if its target is alone. -/
theorem Slot.Accords.uninterrupted_of_ends {a : Outset}
    {answer : RunCall → Except RunError RawOutput} {rs : List RunRecord} {target : Target}
    {slot : Slot} {o : Outcome}
    (h : slot.Accords a (fun call result => result = answer call) rs target)
    (hstart : a.slotAfter [] target = .ok slot.start) (hends : a.Ends answer target o) :
    slot.Uninterrupted := by
  obtain ⟨alone, halone, hresult⟩ := hends
  rw [Outset.alone, hstart] at halone
  obtain rfl := Except.ok.inj halone
  cases slot with
  | idle => trivial
  | job j progress =>
    have hended : j.endIn a.digest a.tree (answer j.call) = .ok o := hresult
    have hprogress := h.progress j progress rfl
    cases progress with
    | waiting | observed => trivial
    | returned before result =>
      obtain ⟨-, rfl⟩ := hprogress
      intro hinterrupted
      simp [Job.endIn, hinterrupted, Job.outcome] at hended
    | ended outcome =>
      obtain ⟨_, rfl, rfl⟩ := hprogress
      intro hinterrupted
      cases hended.symm.trans hinterrupted

namespace Pool.Accords

variable {a : Outset} {answer : RunCall → Except RunError RawOutput} {rs : List RunRecord}
  {p : Pool σ} {outcomes : List Outcome} {r : RunRecord}

variable (h : p.Accords a (fun call result => result = answer call) rs) (hsteady : a.IsSteady)
  (hkeys : a.KeepsApart)
  (hloads : ∀ target ∈ a.targets, a.store.load a.digest (a.store.prepared a.tree) target.name =
    a.store.load a.digest a.tree target.name)

include h hsteady hkeys hloads

/-- Every slot is that of a target that is alone. -/
theorem forall₂_alone (houtcomes : p.outcomes = .ok outcomes) :
    List.Forall₂ (fun target slot => a.alone answer target = .ok slot) a.targets p.slots := by
  have hdone := isDone_of_outcomes houtcomes
  obtain ⟨-, hleft, -⟩ := forall₂_of_outcomes houtcomes
  obtain ⟨looked, htargets, hslots⟩ := h.starts_alone hsteady hkeys hloads
  rw [htargets, hleft, List.append_nil]
  exact forall₂_imp_of_mem hslots fun target _ slot hslot hstart =>
    hstart.1.alone_eq hstart.2 (hdone.ended slot hslot)

/-- If all targets have outcomes when they are alone, the user does not interrupt a job. -/
theorem uninterrupted_of_ends (hends : List.Forall₂ (a.Ends answer) a.targets outcomes) :
    p.Uninterrupted := by
  obtain ⟨looked, htargets, hslots⟩ := h.starts_alone hsteady hkeys hloads
  intro slot hslot
  obtain ⟨target, htarget, haccords, hstart⟩ := exists_of_mem_forall₂ hslots hslot
  obtain ⟨o, -, ho⟩ := exists_of_mem_forall₂ hends.flip
    (htargets ▸ List.mem_append_left _ htarget)
  exact haccords.uninterrupted_of_ends hstart ho

/-- Outcomes are those of targets that are alone. -/
theorem outcomes_eq_ok_iff (hdone : p.Uninterrupted → p.IsDone) :
    p.outcomes = .ok outcomes ↔ List.Forall₂ (a.Ends answer) a.targets outcomes := by
  constructor
  · intro houtcomes
    obtain ⟨-, -, hresults⟩ := forall₂_of_outcomes houtcomes
    exact forall₂_comp (h.forall₂_alone hsteady hkeys hloads houtcomes) hresults
      fun _ slot _ halone hresult => ⟨slot, halone, hresult⟩
  · intro hends
    have hdone := hdone (h.uninterrupted_of_ends hsteady hkeys hloads hends)
    have hnone : p.failure = none := by
      cases hfailure : p.failure with
      | none => rfl
      | some e =>
        obtain ⟨target, -, -, htarget, hslot⟩ := h.fails_alone hsteady hkeys hloads hfailure
        obtain ⟨o, -, slot, halone, -⟩ := exists_of_mem_forall₂ hends.flip htarget
        rw [Outset.alone, hslot] at halone
        cases halone
    have hleft := hdone.looked hnone
    obtain ⟨looked, htargets, hslots⟩ := h.starts_alone hsteady hkeys hloads
    rw [hleft, List.append_nil] at htargets
    rw [htargets] at hends
    have hslotsAlone : List.Forall₂ (fun slot target => a.alone answer target = .ok slot)
        p.slots looked :=
      forall₂_imp_of_mem hslots.flip fun slot hslot target _ hstart =>
        hstart.1.alone_eq hstart.2 (hdone.ended slot hslot)
    refine outcomes_of_forall₂ hnone hleft (forall₂_comp hslotsAlone hends ?_)
    rintro slot target o halone ⟨slot', halone', hresult⟩
    obtain rfl := Except.ok.inj (halone.symm.trans halone')
    exact hresult

/-- Records are those of targets that are alone. -/
theorem mem_records_iff (houtcomes : p.outcomes = .ok outcomes) :
    r ∈ rs ↔ ∃ target ∈ a.targets, ∃ slot, a.alone answer target = .ok slot ∧
      slot.record? a.digest a.tree = some r := by
  have halone := h.forall₂_alone hsteady hkeys hloads houtcomes
  rw [h.records.mem_iff, List.mem_filterMap]
  constructor
  · rintro ⟨slot, hslot, hrecord⟩
    obtain ⟨target, htarget, halone⟩ := exists_of_mem_forall₂ halone hslot
    exact ⟨target, htarget, slot, halone, hrecord⟩
  · rintro ⟨target, htarget, slot, hslot, hrecord⟩
    obtain ⟨slot', hslot', halone'⟩ := exists_of_mem_forall₂ halone.flip htarget
    obtain rfl := Except.ok.inj (hslot.symm.trans halone')
    exact ⟨slot, hslot', hrecord⟩

end Pool.Accords

/-! ### All targets and some of them -/

section

variable {a : Outset} {answer : RunCall → Except RunError RawOutput} {rs rs' : List RunRecord}
  {p p' : Pool σ} {outcomes : List Outcome} {names : List String}

variable (h : p.Accords a (fun call result => result = answer call) rs)
  (houtcomes : p.outcomes = .ok outcomes)
  (h' : p'.Accords (a.only (a.targets.filter fun target => names.contains target.name))
    (fun call result => result = answer call) rs')
  (hdone' : p'.Uninterrupted → p'.IsDone) (hsteady : a.IsSteady) (hkeys : a.KeepsApart)
  (hloads : ∀ target ∈ a.targets, a.store.load a.digest (a.store.prepared a.tree) target.name =
    a.store.load a.digest a.tree target.name)

include h houtcomes h' hdone' hsteady hkeys hloads

/-- A run of some targets has the outcomes that these have in a run of all of them. -/
theorem Pool.Accords.outcomes_only :
    p'.outcomes = .ok (outcomes.filter fun o => names.contains o.program) := by
  have hsub := List.filter_sublist (l := a.targets) (p := fun target => names.contains target.name)
  -- Both runs have the outcomes of targets that are alone, so theirs differ by the filter alone.
  have hends := (h.outcomes_eq_ok_iff hsteady hkeys hloads fun _ =>
    isDone_of_outcomes houtcomes).mp houtcomes
  refine (h'.outcomes_eq_ok_iff (hsteady.only hsub) (hkeys.only hsub)
    (fun target htarget => hloads target (hsub.subset htarget)) hdone').mpr ?_
  have hkept : ∀ target o, a.Ends answer target o →
      (names.contains target.name ↔ names.contains o.program) :=
    fun target o ho => by rw [ho.program]
  exact List.rel_filter hkept hends

/-- It leaves the same records of them behind. -/
theorem Pool.Accords.load_only {name : String} (hname : name ∈ a.names) (hnamed : name ∈ names) :
    p'.state.store.load a.digest p'.state.tree name =
      p.state.store.load a.digest p.state.tree name := by
  have hsub := List.filter_sublist (l := a.targets) (p := fun target => names.contains target.name)
  have hsteady' := hsteady.only hsub
  have hkeys' := hkeys.only hsub
  have hloads' := fun target htarget => hloads target (hsub.subset htarget)
  have houtcomes' := h.outcomes_only houtcomes h' hdone' hsteady hkeys hloads
  have hmem := fun r => h.mem_records_iff hsteady hkeys hloads houtcomes (r := r)
  have hmem' := fun r => h'.mem_records_iff hsteady' hkeys' hloads' houtcomes' (r := r)
  -- Whatever the smaller run has recorded, the other one has as well.
  have hsubset : ∀ r ∈ rs', r ∈ rs := by
    intro r hr
    obtain ⟨target, htarget, hslot⟩ := (hmem' r).mp hr
    exact (hmem r).mpr ⟨target, hsub.subset htarget, hslot⟩
  have hrs := h.mem_names
  have hrs' : ∀ r ∈ rs', r.name ∈ a.names := fun r hr => hrs r (hsubset r hr)
  have hprepared : a.store.load a.digest (a.store.prepared a.tree) name =
      a.store.load a.digest a.tree name := by
    obtain ⟨target, htarget, rfl⟩ := List.mem_map.mp hname
    exact hloads target htarget
  have hsame : ∀ r, a.store.keyOf a.digest r.name = a.store.keyOf a.digest name →
      (r ∈ rs ↔ r ∈ rs') := by
    refine fun r hkey => ⟨fun hr => ?_, hsubset r⟩
    -- A record under the key of that name is one of a target that is run in both.
    obtain rfl : r.name = name := by_contra fun hne => hkeys.keyOf_ne (hrs r hr) hname hne hkey
    obtain ⟨target, htarget, slot, halone, hrecord⟩ := (hmem r).mp hr
    have hkept : names.contains target.name := by
      rw [← Outset.name_of_alone halone hrecord]
      exact List.contains_iff_mem.mpr hnamed
    exact (hmem' r).mpr ⟨target, List.mem_filter.mpr ⟨htarget, hkept⟩, slot, halone, hrecord⟩
  obtain ⟨hstore, htree⟩ := Prod.mk.inj h.saved
  obtain ⟨hstore', htree'⟩ := Prod.mk.inj h'.saved
  rw [hstore, htree, hstore', htree']
  exact CacheStore.load_saveAll_congr hsteady.admits hname hprepared hrs (h.distinct hkeys) hrs'
    (h'.distinct hkeys') hsame

end

/-! ### Whole runs -/

namespace FileTree

/-- A run of some linters starts with their targets. -/
theorem prepare_only {digest : Digest} {homes : Homes} {t : FileTree} {jobCount : Int} {c : Config}
    {targets : List Target} {cacheDir skipped : Path} (names : List String)
    (h : t.prepare digest homes jobCount c = .ok (targets, cacheDir, skipped)) :
    t.prepare digest homes jobCount (c.only names) =
      .ok (targets.filter fun target => names.contains target.name, cacheDir, skipped) := by
  obtain ⟨haims, hrest⟩ := prepare_eq_ok_iff.mp h
  have hkept : ∀ l target, t.Aims digest homes c.root l target →
      (names.contains l.name ↔ names.contains target.name) := by
    intro l target haim
    rw [← haim.settings, Target.name]
  exact prepare_eq_ok_iff.mpr ⟨List.rel_filter hkept haims, hrest⟩

/-- A run of linters that are selected by their names has the outcomes that these linters have in a
run of all of them, in order of declaration, and leaves the same records of them behind, if the
store is apart from the files of the targets, and if commands change no file and their results
depend on the call only. -/
theorem selected_run_exact (setup : RunSetup σ) (options : RunOptions) (c : Config) (t : FileTree)
    (x x' : σ) (schedule : Nat → List Turn) (names : List String)
    (answer : RunCall → Except RunError RawOutput) {outcomes : List Outcome}
    (hgives : setup.runner.Gives fun call result => result = answer call)
    (hcomplete : ∀ count, Turn.Completes count (setup.schedule count))
    (hcomplete' : ∀ count, Turn.Completes count (schedule count))
    (hstore : ∀ targets cacheDir skipped,
      t.prepare setup.digest setup.homes (options.jobCount c) c = .ok (targets, cacheDir, skipped) →
        (options.storeFor c cacheDir).IsApart setup.digest t cacheDir targets)
    (houtcomes : (t.run setup options c x).outcomes = .ok outcomes) (hne : names ≠ [])
    (hknown : ∀ name ∈ names, name ∈ c.linters.map (·.name)) :
    ∃ c', c.select names = .ok c' ∧
      let r := t.run setup options c x
      let r' := t.run { setup with schedule } options c' x'
      r'.outcomes = .ok (outcomes.filter fun o => names.contains o.program) ∧
      (outcomes.filter fun o => names.contains o.program).map (·.program) =
        c'.linters.map (·.name) ∧
      ∀ name ∈ names, r'.state.store.load setup.digest r'.state.tree name =
        r.state.store.load setup.digest r.state.tree name := by
  refine ⟨_, Config.select_of_known hne hknown, ?_⟩
  intro r r'
  cases hprepare : t.prepare setup.digest setup.homes (options.jobCount c) c with
  | error e => simp [run, hprepare] at houtcomes
  | ok found =>
    obtain ⟨targets, cacheDir, skipped⟩ := found
    have hapart := hstore targets cacheDir skipped hprepare
    obtain ⟨haims, -, hskipped⟩ := prepare_spec hprepare
    let a : Outset := ⟨setup.digest, [skipped], c.globals.excludes, options.storeFor c cacheDir, t,
      targets⟩
    let a' := a.only (targets.filter fun target => names.contains target.name)
    have hsub : a'.targets.Sublist a.targets := List.filter_sublist
    have hsteady : a.IsSteady := CacheStore.isSteady_of_secluded hapart.secluded hskipped
      (isDir_of_aims haims) _
    have hkeys : a.KeepsApart := hapart.keys
    have hprepare' := prepare_only names hprepare
    obtain ⟨p, rs, haccords, hcollects⟩ := exists_pool_of_run setup options c x a hprepare rfl
      ⟨rfl, rfl, rfl⟩ hsteady (List.Nodup.of_map _ hkeys) hgives hcomplete
    obtain ⟨p', rs', haccords', hcollects'⟩ := exists_pool_of_run { setup with schedule } options
      (c.only names) x' a' hprepare' rfl ⟨rfl, rfl, rfl⟩ (hsteady.only hsub)
      (List.Nodup.of_map _ (hkeys.only hsub)) hgives hcomplete'
    have hall := hcollects.outcomes.symm.trans houtcomes
    have hsome : r'.outcomes = .ok _ := hcollects'.outcomes.trans
      (haccords.outcomes_only hall haccords' hcollects'.done hsteady hkeys hapart.loads)
    refine ⟨hsome, programs_run { setup with schedule } options _ t x' hsome, fun name hname => ?_⟩
    have hmem : name ∈ targets.map Target.name := by
      rw [names_of_aims haims]
      exact hknown name hname
    obtain ⟨hstore, htree⟩ := Prod.mk.inj hcollects.saved
    obtain ⟨hstore', htree'⟩ := Prod.mk.inj hcollects'.saved
    have hload := haccords.load_only hall haccords' hcollects'.done hsteady hkeys hapart.loads hmem
      hname
    rw [← hstore, ← htree, ← hstore', ← htree'] at hload
    exact hload

/-- The second of two linters with a cache below their directory has the same outcome and the same
record whether or not the first is run as well. -/
theorem selected_run_exact_second_of_two :
    let c := Sample.config true [Sample.linter "a" "/x", Sample.linter "b" "/x"]
    let r := Sample.treeWithCache.run (Sample.passingSetup jobByJob) (Sample.options none) c ()
    ∃ c', c.select ["b", "b"] = .ok c' ∧
      let r' := Sample.treeWithCache.run (Sample.passingSetup inOrder) (Sample.options none) c' ()
      r'.outcomes.map (·.map fun o => (o.program, o.status)) = .ok [("b", .ok)] ∧
        r'.state.store.load Sample.digest r'.state.tree "b" =
          r.state.store.load Sample.digest r.state.tree "b" := by
  intro c r
  have houtcomes : (Sample.treeWithCache.run (Sample.passingSetup jobByJob) (Sample.options none)
      (Sample.config true [Sample.linter "a" "/x", Sample.linter "b" "/x"]) ()).outcomes = .ok
      [{ program := "a", status := .ok, exitStatus := some 0, output := "", lines := []
         error := none, files := ["x"], modified := [] },
       { program := "b", status := .ok, exitStatus := some 0, output := "", lines := []
         error := none, files := ["x"], modified := [] }] := by
    cbv
  obtain ⟨c', hselect, hsome, -, hrecords⟩ := selected_run_exact (Sample.passingSetup jobByJob)
    (Sample.options none) c Sample.treeWithCache () () inOrder ["b", "b"] (fun _ => .ok ⟨0, ""⟩)
    ⟨fun _ _ => rfl, fun _ _ => rfl⟩ completes_jobByJob completes_inOrder
    (fun targets cacheDir skipped => Sample.isApart_two_linters) houtcomes (by decide) (by decide)
  refine ⟨c', hselect, ?_, hrecords "b" (by decide)⟩
  exact congrArg (Except.map (List.map fun o => (o.program, o.status))) hsome

/-- The second linter works in the directory of the cache. If the first is run as well, the entry
that is saved for it is a file of the second. -/
theorem selection_matters_in_work_dir :
    (Sample.passing.Gives fun _ result => result = .ok ⟨0, ""⟩) ∧
      (∀ count, Turn.Completes count (jobByJob count)) ∧
      (Sample.treeWithCache.run (Sample.passingSetup jobByJob) (Sample.options none)
        (Sample.config true
          [Sample.linter "a" "/x", { Sample.linter "b" "/x" with workDir := some "c" }])
        ()).outcomes.map (·.map (·.files)) = .ok [["x"], ["a.json"]] ∧
      (Sample.config true
          [Sample.linter "a" "/x", { Sample.linter "b" "/x" with workDir := some "c" }]).select
          ["b"] =
        .ok (Sample.config true [{ Sample.linter "b" "/x" with workDir := some "c" }]) ∧
      (Sample.treeWithCache.run (Sample.passingSetup jobByJob) (Sample.options none)
        (Sample.config true [{ Sample.linter "b" "/x" with workDir := some "c" }])
          ()).outcomes.map (·.map (·.files)) = .ok [[]] := by
  refine ⟨⟨fun _ _ => rfl, fun _ _ => rfl⟩, completes_jobByJob, ?_, ?_, ?_⟩
  · cbv
  · cbv
  · cbv

end FileTree

end LinterSuite
