import LinterSuite.Proofs.Execution.Statuses
import LinterSuite.Proofs.Run.Calls
import LinterSuite.Proofs.Run.Targets

/-!
# The exit status of a run

A run fails exactly if a process that was to be started for one of its linters did not pass. For
this every report that the log tells of has to be found again at the linter that it belongs to: two
linters may make the same call, and one of the calls may fail while the other passes.

## Main definitions

* `Target.Fared`: what became of a target in a run

## Main results

* `FileTree.fared_run`: what became of all linters of a run
* `FileTree.exitStatus_exact`: a run passes exactly if every invocation that was planned did
-/

namespace LinterSuite

variable {σ : Type}

/-! ### Linters of a run -/

/-- What became of a target in a run that began in a certain state. There was nothing to be run, by
what was found in a state that the run passed through, or a job was made and called. -/
inductive Target.Fared (terms : Terms σ) (first : RunState σ) (target : Target) :
    Option (RunCall × RunReport) × Outcome → Prop
  | idle {s : RunState σ} {o : Outcome} (acts : RunState.Acts terms.digest terms.runner first s)
      (found : target.Found terms.digest s.tree s.store terms.skipped terms.globalExcludes
        (.ok (.idle o))) :
      Fared terms first target (none, o)
  | called {s : RunState σ} {files : List String} {world : FileTree × σ} {o : Outcome}
      (acts : RunState.Acts terms.digest terms.runner first s)
      (found : target.Found terms.digest s.tree s.store terms.skipped terms.globalExcludes
        (.ok (.job ⟨target, files⟩ .waiting)))
      (delivers : Job.Delivers ⟨target, files⟩
        (terms.runner (Job.call ⟨target, files⟩) world).1.result o) :
      Fared terms first target
        (some (Job.call ⟨target, files⟩, (terms.runner (Job.call ⟨target, files⟩) world).1), o)

namespace Target

variable {terms : Terms σ} {first : RunState σ} {target : Target}
  {called : Option (RunCall × RunReport)} {o : Outcome}

theorem fared_of_slot {log : List Event} {slot : Slot} (htrace : slot.Traces terms first log target)
    (hreported : slot.Reported terms called) (hresult : slot.result = .ok o) :
    target.Fared terms first (called, o) := by
  obtain ⟨s, hacts, hfound⟩ := htrace.found
  cases slot with
  | idle o' =>
    obtain rfl : o' = o := Except.ok.inj hresult
    cases hreported with
    | uncalled => exact .idle hacts hfound
  | job j progress =>
    obtain rfl := htrace.target_eq
    cases progress with
    | ended ended =>
      obtain rfl : ended = .ok o := hresult
      cases hreported with
      | uncalled hnone => exact nomatch hnone
      | ended hends => exact .called hacts hfound hends.delivers
    | _ => exact nomatch hresult

end Target

/-- A linter that was run passed exactly if its command did. -/
theorem Job.Delivers.succeeded_iff {j : Job} {result : Except RunError RawOutput} {o : Outcome}
    (h : j.Delivers result o) :
    o.succeeded = true ↔ ∃ raw, result = .ok raw ∧ raw.success = true := by
  cases h with
  | @ran raw =>
    unfold Outcome.succeeded
    cases hsuccess : raw.success <;> simp [Status.succeeded, hsuccess]
  | failed => simp [Outcome.succeeded, Status.succeeded]

/-- A linter that passed or failed has the status of its command. -/
theorem Job.Delivers.exists_raw {j : Job} {result : Except RunError RawOutput} {o : Outcome}
    (h : j.Delivers result o) (hstatus : o.status = .ok ∨ o.status = .failed) :
    ∃ raw, result = .ok raw ∧ o.exitStatus = some raw.exitStatus := by
  cases h with
  | ran => exact ⟨_, rfl, rfl⟩
  | failed => rcases hstatus with h | h <;> exact nomatch h

namespace Target.Fared

variable {terms : Terms σ} {first : RunState σ} {target : Target} {m : Machine (FileTree × σ)}
  {env : Environment} {called : Option (RunCall × RunReport)} {o : Outcome}

/-- A linter does not fail exactly if all invocations of its command passed, if it has one. -/
theorem succeeded_iff (h : target.Fared terms first (called, o))
    (hrunner : terms.runner = m.runner env) :
    o.succeeded = true ↔ ∀ call report, called = some (call, report) → report.IsClean call := by
  cases h with
  | idle _ found =>
    have hpassed : o.succeeded = true := by cases found <;> rfl
    simp [hpassed]
  | called _ _ delivers =>
    rw [hrunner] at delivers ⊢
    rw [delivers.succeeded_iff]
    constructor
    · rintro hpass _ _ ⟨rfl, rfl⟩
      exact (m.passes_iff_isClean env _ _).mp hpass
    · intro hclean
      exact (m.passes_iff_isClean env _ _).mpr (hclean _ _ rfl)

/-- A linter that passed or failed was run, and its status is folded from those of its processes. -/
theorem exitStatus_of_ran (h : target.Fared terms first (called, o))
    (hrunner : terms.runner = m.runner env) (hran : o.status = .ok ∨ o.status = .failed) :
    ∃ call report statuses, called = some (call, report) ∧
      report.spawned.map (·.2.status?) = statuses.map some ∧
      report.planned.length = statuses.length ∧ o.exitStatus = some (foldStatus statuses) := by
  cases h with
  | idle _ found =>
    cases found <;> rcases hran with hran | hran <;> exact nomatch hran
  | called _ _ delivers =>
    rw [hrunner] at delivers ⊢
    obtain ⟨raw, hraw, hstatus⟩ := delivers.exists_raw hran
    obtain ⟨statuses, hspawned, hplanned, hfold⟩ := Machine.statuses_of_run hraw
    exact ⟨_, _, statuses, rfl, hspawned, hplanned, by rw [hstatus, hfold]⟩

end Target.Fared

/-- The exit status of a run tells whether all linters passed or needed no run. -/
theorem RunResult.statusOf_eq (outcomes : List Outcome) :
    statusOf outcomes = if ∀ o ∈ outcomes, o.succeeded = true then 0 else 1 := by
  have hiff : anyFailed outcomes = true ↔ ¬ ∀ o ∈ outcomes, o.succeeded = true := by
    simp [anyFailed]
  unfold statusOf
  by_cases hall : ∀ o ∈ outcomes, o.succeeded = true
  · rw [if_neg fun hfailed => hiff.mp hfailed hall, if_pos hall]
  · rw [if_pos (hiff.mpr hall), if_neg hall]

namespace FileTree

variable (setup : RunSetup σ) (options : RunOptions) (c : Config) (t : FileTree) (x : σ)

/-- A run that has outcomes, with what it comes from: the state in which it begins, the targets of
its linters, and their pool after all its turns. -/
structure Yields (outcomes : List Outcome) (cacheDir skipped : Path) (first : RunState σ)
    (targets : List Target) (p : Pool σ) : Prop where
  cachePath : c.cachePath setup.homes = .ok cacheDir
  tree : first.tree = t
  runner : first.runner = x
  store : first.store = options.storeFor c cacheDir
  log : Event.reports first.log = []
  aims : List.Forall₂ (t.Aims setup.digest setup.homes c.root) c.linters targets
  pool : p = (Pool.fresh targets first).run (setup.terms (options.jobCount c) c skipped)
    (setup.schedule targets.length)
  traces : List.Forall₂
    (Slot.Traces (setup.terms (options.jobCount c) c skipped) first p.state.log) targets p.slots
  results : List.Forall₂ (fun slot o => slot.result = .ok o) p.slots outcomes
  state : (t.run setup options c x).state = p.state.say p.closing

theorem exists_yields {outcomes : List Outcome}
    (h : (t.run setup options c x).outcomes = .ok outcomes) :
    ∃ cacheDir skipped first targets p,
      Yields setup options c t x outcomes cacheDir skipped first targets p := by
  cases hprepare : t.prepare setup.digest setup.homes (options.jobCount c) c with
  | error e => simp [run, hprepare] at h
  | ok found =>
    obtain ⟨targets, cacheDir, skipped⟩ := found
    obtain ⟨haims, hcacheDir, -⟩ := prepare_spec hprepare
    have hr := run_eq setup options c t x hprepare
    dsimp only at hr
    let first : RunState σ := RunState.say ⟨t, x, options.storeFor c cacheDir, []⟩ [.noted .run
      s!"running {targets.length} linter(s) with {options.jobCount c} job(s)"]
    have htraced := Pool.traced_run (setup.terms (options.jobCount c) c skipped) targets first
      (setup.schedule targets.length)
    have houtcomes := h
    rw [hr] at houtcomes
    obtain ⟨-, hleft, hresults⟩ := Pool.forall₂_of_outcomes houtcomes
    obtain ⟨looked, htargets, hslots⟩ := htraced.slots
    -- A run that has outcomes has looked at all targets.
    obtain rfl : looked = targets := by
      conv_rhs => rw [htargets]
      exact (List.append_nil looked).symm.trans (congrArg (looked ++ ·) hleft.symm)
    exact ⟨cacheDir, skipped, first, _, _, hcacheDir, rfl, rfl, rfl, rfl, haims, rfl, hslots,
      hresults, by rw [hr]; rfl⟩

/-- What became of all linters of a run, in order of declaration. The commands that were run are
theirs, one for each linter that was due. -/
theorem fared_run {outcomes : List Outcome}
    (h : (t.run setup options c x).outcomes = .ok outcomes) :
    ∃ (cacheDir skipped : Path) (first : RunState σ)
      (runs : List (Option (RunCall × RunReport) × Outcome)),
      c.cachePath setup.homes = .ok cacheDir ∧ first.tree = t ∧ first.runner = x ∧
      first.store = options.storeFor c cacheDir ∧
      List.Forall₂ (fun s run => ∃ target, t.Aims setup.digest setup.homes c.root s target ∧
        target.Fared (setup.terms (options.jobCount c) c skipped) first run) c.linters runs ∧
      runs.map (·.2) = outcomes ∧
      (Event.reports (t.run setup options c x).state.log).Perm (runs.filterMap (·.1)) := by
  obtain ⟨cacheDir, skipped, first, targets, p, hyields⟩ := exists_yields setup options c t x h
  obtain ⟨reports, hreports, hlog⟩ : p.Reported (setup.terms (options.jobCount c) c skipped) :=
    hyields.pool ▸ Pool.reported_run _ targets hyields.log _
  have hfared : List.Forall₂ (fun target run =>
      target.Fared (setup.terms (options.jobCount c) c skipped) first run)
      targets (reports.zip outcomes) :=
    forall₂_comp hyields.traces (forall₂_zip_right hreports.flip hyields.results)
      fun _ _ _ htrace hrun => Target.fared_of_slot htrace hrun.1 hrun.2
  have hlength : reports.length = outcomes.length :=
    hreports.length_eq.trans hyields.results.length_eq
  refine ⟨cacheDir, skipped, first, reports.zip outcomes, hyields.cachePath, hyields.tree,
    hyields.runner, hyields.store, forall₂_comp hyields.aims hfared
      fun _ target _ haim hrun => ⟨target, haim, hrun⟩, List.map_snd_zip hlength.ge, ?_⟩
  -- What is reported after all turns tells of no command.
  have hclosing : Event.reports (p.state.say p.closing).log = Event.reports p.state.log := by
    rw [RunState.say, Event.reports_append, Event.reports_eq_nil (Pool.calls_closing p),
      List.append_nil]
  have hpairs : (reports.zip outcomes).filterMap (·.1) = reports.filterMap id := by
    conv_rhs => rw [← List.map_fst_zip hlength.le, List.filterMap_map]
    rfl
  rw [hyields.state, hclosing, hpairs]
  exact hlog

/-- A run that has its outcomes passes exactly if, for every linter that was due, every invocation
was made and ended with a status of zero, and fails otherwise. The status that is reported of a
linter is that of its invocation if there is one only, and else tells whether all passed. -/
theorem exitStatus_exact (m : Machine (FileTree × σ)) (env : Environment)
    (hrunner : setup.runner = m.runner env) {outcomes : List Outcome}
    (h : (t.run setup options c x).outcomes = .ok outcomes) :
    ∃ (cacheDir skipped : Path) (first : RunState σ)
      (runs : List (Option (RunCall × RunReport) × Outcome)),
      (c.cachePath setup.homes = .ok cacheDir ∧ first.tree = t ∧ first.runner = x ∧
        first.store = options.storeFor c cacheDir) ∧
      List.Forall₂ (fun s run => ∃ target, t.Aims setup.digest setup.homes c.root s target ∧
        target.Fared (setup.terms (options.jobCount c) c skipped) first run) c.linters runs ∧
      runs.map (·.2) = outcomes ∧
      (Event.reports (t.run setup options c x).state.log).Perm (runs.filterMap (·.1)) ∧
      (∀ run ∈ runs, run.2.status = .ok ∨ run.2.status = .failed →
        ∃ call report statuses, run.1 = some (call, report) ∧
          report.spawned.map (·.2.status?) = statuses.map some ∧
          report.planned.length = statuses.length ∧
          (∀ status, statuses = [status] → run.2.exitStatus = some status) ∧
          (statuses.length ≠ 1 → run.2.exitStatus =
            some (if ∀ status ∈ statuses, status = 0 then 0 else 123))) ∧
      ((t.run setup options c x).exitStatus = .ok 0 ∨
        (t.run setup options c x).exitStatus = .ok 1) ∧
      ((t.run setup options c x).exitStatus = .ok 0 ↔
        ∀ run ∈ runs, ∀ call report, run.1 = some (call, report) → report.IsClean call) := by
  obtain ⟨cacheDir, skipped, first, runs, hcacheDir, htree, hx, hstore, hfared, houtcomes, hlog⟩ :=
    fared_run setup options c t x h
  have hmem : ∀ run ∈ runs, ∃ target : Target,
      target.Fared (setup.terms (options.jobCount c) c skipped) first run := by
    intro run hrun
    obtain ⟨s, -, target, -, hfared⟩ := exists_of_mem_forall₂ hfared hrun
    exact ⟨target, hfared⟩
  -- An outcome passes exactly if the command behind it was clean, or there was none.
  have hpassed : (∀ o ∈ outcomes, o.succeeded = true) ↔
      ∀ run ∈ runs, ∀ call report, run.1 = some (call, report) → report.IsClean call := by
    rw [← houtcomes, List.forall_mem_map]
    refine forall₂_congr fun run hrun => ?_
    obtain ⟨target, hfared⟩ := hmem run hrun
    exact hfared.succeeded_iff hrunner
  have hstatus : (t.run setup options c x).exitStatus = .ok (RunResult.statusOf outcomes) := by
    rw [RunResult.exitStatus, h]
    rfl
  refine ⟨cacheDir, skipped, first, runs, ⟨hcacheDir, htree, hx, hstore⟩, hfared, houtcomes, hlog,
    fun run hrun hran => ?_, ?_⟩
  · obtain ⟨target, hfared⟩ := hmem run hrun
    obtain ⟨call, report, statuses, hcalled, hspawned, hplanned, hfold⟩ :=
      hfared.exitStatus_of_ran hrunner hran
    refine ⟨call, report, statuses, hcalled, hspawned, hplanned, ?_, fun hlength => ?_⟩
    · rintro status rfl
      exact hfold
    · rw [hfold, foldStatus_of_length_ne_one hlength]
      rfl
  · rw [← hpassed, hstatus, RunResult.statusOf_eq]
    by_cases hall : ∀ o ∈ outcomes, o.succeeded = true
    · rw [if_pos hall]
      exact ⟨.inl rfl, fun _ => hall, fun _ => rfl⟩
    · rw [if_neg hall]
      exact ⟨.inr rfl, fun hzero => absurd hzero (by simp), fun h => absurd h hall⟩

end FileTree

/-! ### A run with a batch that fails -/

namespace Sample

/-- A tree with two files, one of which can be run. -/
def pair : FileTree :=
  { root := .dir 0 [("x", .file { content := [], mtime := 1, executable := true }),
      ("y", .file { content := [], mtime := 1, executable := false })]
    cwd := [], clock := 2 }

/-- A machine on which exactly the processes that are given the file `y` fail. -/
def failing : Machine (FileTree × Unit) :=
  { machine with spawn inv s := (.exited (if "y" ∈ inv.argv then 3 else 0) [], s) }

/-- A linter that is invoked for each of its files, on two files. -/
def partly : RunResult Unit :=
  pair.run { setup with runner := failing.runner environment } (options none)
    (config false [{ linter "a" "/x" with includes := [" "], singleFile := true }]) ()

end Sample

/-- One of two invocations fails, so the linter has neither of their statuses, and the run fails. -/
theorem FileTree.exitStatus_exact_partly :
    Sample.partly.outcomes.map (·.map fun o => (o.status, o.exitStatus, o.files)) =
        .ok [(.failed, some 123, ["x", "y"])] ∧
      Sample.partly.exitStatus = .ok 1 ∧
      ∃ call report, (call, report) ∈ Event.reports Sample.partly.state.log ∧
        ¬ report.IsClean call := by
  have houtcomes : Sample.partly.outcomes = .ok
      [{ program := "a", status := .failed, exitStatus := some 123, output := "", lines := []
         error := none, files := ["x", "y"], modified := [] }] := by
    cbv
  have hfailed : Sample.partly.exitStatus = .ok 1 := by
    rw [RunResult.exitStatus, houtcomes]
    rfl
  obtain ⟨-, -, -, runs, -, -, -, hlog, -, -, hclean⟩ :=
    exitStatus_exact { Sample.setup with runner := Sample.failing.runner Sample.environment }
      (Sample.options none) (Sample.config false
        [{ Sample.linter "a" "/x" with includes := [" "], singleFile := true }])
      Sample.pair () Sample.failing Sample.environment rfl houtcomes
  refine ⟨by rw [houtcomes]; rfl, hfailed, ?_⟩
  -- If all invocations were clean, the run would pass.
  by_contra! hall
  have hzero : Sample.partly.exitStatus = .ok 0 :=
    hclean.mpr fun run hrun call report hcalled => hall call report
      (hlog.mem_iff.mpr (List.mem_filterMap.mpr ⟨run, hrun, hcalled⟩))
  rw [hfailed] at hzero
  cases hzero

end LinterSuite
