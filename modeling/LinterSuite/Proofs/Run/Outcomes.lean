import LinterSuite.Proofs.Execution.Batches
import LinterSuite.Proofs.Run.Completion
import LinterSuite.Proofs.Run.Reports
import LinterSuite.Proofs.Run.Samples
import LinterSuite.Proofs.Run.Targets

/-!
# Trouble of one linter

Whatever goes wrong while the command of one linter is looked for, started and run is an outcome of
that linter, and the others get theirs. There are exceptions, and they are listed here: some trouble
is no failure of a command, and ends the whole run.

## Main definitions

* `RunCall.Escapes`: what keeps a command from being run and is no failure of it
* `Target.Delivered`: an outcome that a target came to
* `Target.Trouble`: trouble of a target that ends the whole run

## Main results

* `Machine.run_error`: a command fails, or one of the exceptions is met
* `FileTree.delivers_or_trouble`: every linter has its outcome, unless one of them meets an
  exception
* `FileTree.ends_of_unknown_home`: a command in the home directory of nobody ends a run
-/

namespace LinterSuite

variable {σ : Type}

/-! ### Commands that cannot be run -/

/-- How a process keeps its command from being run to the end without being a failure of it: it was
given an argument with a null character, or a time limit that is too long to be waited for. -/
def Ending.escape? : Ending → Option RunError
  | nullInArgument => some .nullInArgument
  | unwaited e => some (.unwaited e)
  | exited .. | timedOut _ | unstartable _ => none

/-- What keeps a command from being run and is no failure of it: its working directory or its own
path is too long to be asked about, it is in the home directory of nobody, or it is one of its
processes. -/
inductive RunCall.Escapes (env : Environment) (t : FileTree) (call : RunCall)
    (spawned : List (Invocation × Ending)) : RunError → Prop
  | workDir {e : FileTree.PathError} (long : t.ask FileTree.isDir call.workDir = .error e) :
      Escapes env t call spawned (.path e)
  | home {e : HomeError} (isPath : '/' ∈ call.command.toList)
      (unknown : (Path.ofString call.command).expandHome env.homes = .error e) :
      Escapes env t call spawned (.home e)
  | command {p : Path} {e : FileTree.PathError} (isPath : '/' ∈ call.command.toList)
      (expanded : (Path.ofString call.command).expandHome env.homes = .ok p)
      (long : t.ask FileTree.isRunnable (call.workDir.join p) = .error e) :
      Escapes env t call spawned (.path e)
  | process {inv : Invocation} {ending : Ending} {err : RunError}
      (came : (inv, ending) ∈ spawned) (escape : ending.escape? = some err) :
      Escapes env t call spawned err

namespace Machine

variable {m : Machine σ} {env : Environment} {call : RunCall} {s : σ} {err : RunError}

theorem executable_error {t : FileTree} {spawned : List (Invocation × Ending)}
    (h : t.executable env call.command call.workDir = .error err) :
    (∃ f, err = .failed f) ∨ call.Escapes env t spawned err := by
  unfold FileTree.executable at h
  split at h
  · next hpath =>
    have hpath : '/' ∈ call.command.toList := by simpa using hpath
    split at h
    · next e hhome =>
      obtain rfl := Except.error.inj h
      exact .inr (.home hpath hhome)
    · next p hhome =>
      dsimp only at h
      split at h
      · next e hask =>
        obtain rfl := Except.error.inj h
        exact .inr (.command hpath hhome hask)
      · exact nomatch h
      · obtain rfl := Except.error.inj h
        exact .inl ⟨_, rfl⟩
  · split at h
    · exact nomatch h
    · obtain rfl := Except.error.inj h
      exact .inl ⟨_, rfl⟩

/-- What ends badly has failed, or is an exception. -/
theorem settle_error {inv : Invocation} {earlier : String} {ending : Ending}
    (h : settle inv earlier ending = .error err) :
    (∃ f, err = .failed f) ∨ ending.escape? = some err := by
  cases ending with
  | exited => exact nomatch h
  | timedOut | unstartable =>
    obtain rfl := Except.error.inj h
    exact .inl ⟨_, rfl⟩
  | nullInArgument | unwaited =>
    obtain rfl := Except.error.inj h
    exact .inr rfl

theorem invokeAll_error {invs : List Invocation} {earlier : List (Int × String)}
    (h : (m.invokeAll earlier invs s).2.1 = .error err) :
    (∃ f, err = .failed f) ∨
      ∃ inv ending, (inv, ending) ∈ (m.invokeAll earlier invs s).1 ∧
        ending.escape? = some err := by
  induction invs generalizing earlier s with
  | nil => exact nomatch h
  | cons inv invs ih =>
    rcases m.invokeAll_cons earlier inv invs s with
        ⟨-, hall⟩ | ⟨ending, s', e, -, hsettle, hall⟩ | ⟨status, output, s', -, hall⟩ <;>
      rw [hall] at h ⊢
    · obtain rfl := Except.error.inj h
      exact .inl ⟨_, rfl⟩
    · obtain rfl := Except.error.inj h
      exact (settle_error hsettle).imp_right fun hescape =>
        ⟨inv, ending, List.mem_cons_self, hescape⟩
    · exact (ih h).imp_right fun ⟨inv', ending, hmem, hescape⟩ =>
        ⟨inv', ending, List.mem_cons_of_mem _ hmem, hescape⟩

/-- A command that is not run to its end fails, or one of the exceptions is met. -/
theorem run_error (h : (m.run env call s).1.result = .error err) :
    (∃ f, err = .failed f) ∨ call.Escapes env (m.tree s) (m.run env call s).1.spawned err := by
  unfold run at h ⊢
  dsimp only at h ⊢
  split at h
  · next e hask =>
    obtain rfl := Except.error.inj h
    exact .inr (.workDir hask)
  · obtain rfl := Except.error.inj h
    exact .inl ⟨_, rfl⟩
  · next hask =>
    split at h
    · next e hexecutable =>
      obtain rfl := Except.error.inj h
      exact executable_error hexecutable
    · next executable hexecutable =>
      dsimp only at h ⊢
      cases hresults : (m.invokeAll []
        ((call.batches env executable).map (call.invocation executable)) s).2.1 with
      | ok rs => exact nomatch hresults ▸ h
      | error e =>
        obtain rfl : e = err := by simpa [hresults, Except.map] using h
        exact (invokeAll_error hresults).imp_right fun ⟨inv, ending, hmem, hescape⟩ =>
          .process hmem hescape

/-- No machine interrupts a run. -/
theorem runner_uninterrupted (m : Machine (FileTree × σ)) (env : Environment) :
    (m.runner env).Uninterrupted := by
  intro call world h
  rcases run_error h with ⟨f, hf⟩ | hescapes
  · exact nomatch hf
  · cases hescapes with
    | @process _ ending _ _ hescape => cases ending <;> exact nomatch hescape

end Machine

/-! ### Outcomes and trouble -/

/-- How an error that is no failure of a command ends a run. -/
def RunError.toRunFailure? : RunError → Option RunFailure
  | failed _ => none
  | home e => some (.home e)
  | path e => some (.path e)
  | nullInArgument => some .nullInArgument
  | unwaited e => some (.unwaited e)
  | interrupted => some .interrupted

/-- What a command wrote, whether or not it was run to its end. -/
def Job.written? : Except RunError RawOutput → Option String
  | .ok raw => some raw.output
  | .error (.failed f) => some f.output
  | .error _ => none

/-- A job without an outcome met an exception, or wrote a numeral that is too long to be read. -/
theorem Job.outcome_error {j : Job} {before after : Observation}
    {result : Except RunError RawOutput} {e : RunFailure}
    (h : j.outcome before after result = .error e) :
    (∃ err, result = .error err ∧ err.toRunFailure? = some e) ∨
      ∃ output n, written? result = some output ∧
        Grammar.parseOutput j.target.grammars j.name output = .error n ∧ e = .numeral n := by
  cases result with
  | ok raw =>
    refine .inr ⟨raw.output, ?_⟩
    unfold outcome ranOutcome at h
    cases hread : Grammar.parseOutput j.target.grammars j.name raw.output with
    | ok lines => simp [hread, bind, Except.bind, pure, Except.pure, Except.mapError] at h
    | error n =>
      obtain rfl : .numeral n = e := by simpa [hread, bind, Except.bind, Except.mapError] using h
      exact ⟨n, rfl, rfl, rfl⟩
  | error err =>
    cases err with
    | failed f =>
      refine .inr ⟨f.output, ?_⟩
      unfold outcome failedOutcome at h
      cases hread : Grammar.parseOutput j.target.grammars j.name f.output with
      | ok lines => simp [hread, bind, Except.bind, pure, Except.pure, Except.mapError] at h
      | error n =>
        obtain rfl : .numeral n = e := by
          simpa [hread, bind, Except.bind, Except.mapError] using h
        exact ⟨n, rfl, rfl, rfl⟩
    | home | path | nullInArgument | unwaited | interrupted =>
      obtain rfl := Except.error.inj h
      exact .inl ⟨_, rfl, rfl⟩

/-- An outcome that a target came to: it had no files, it was spared, or the log tells of a call
with a result that the outcome delivers. -/
inductive Target.Delivered (m : Machine (FileTree × σ)) (env : Environment) (log : List Event)
    (target : Target) : Outcome → Prop
  | skipped : Delivered m env log target (.idle target.name .skipped [])
  | cached {files : List String} (nonempty : files ≠ []) :
      Delivered m env log target (.idle target.name .cached files)
  | ran {j : Job} {world : FileTree × σ} {o : Outcome} (mine : j.target = target)
      (called : .called j.call (m.run env j.call world).1 ∈ log)
      (delivers : j.Delivers (m.run env j.call world).1.result o) : Delivered m env log target o

theorem Target.Delivered.program {m : Machine (FileTree × σ)} {env : Environment}
    {log : List Event} {target : Target} {o : Outcome} (h : target.Delivered m env log o) :
    o.program = target.name := by
  cases h with
  | skipped | cached => rfl
  | ran mine _ delivers => rw [delivers.program, Job.name, mine]

/-- Trouble of a target that ends the whole run: it cannot be looked at, its command meets an
exception, its output holds a numeral that is too long, or its files cannot be recorded. -/
inductive Target.Trouble (m : Machine (FileTree × σ)) (env : Environment) (terms : Terms σ)
    (first : RunState σ) (log : List Event) (target : Target) : RunFailure → Prop
  | looked {s : RunState σ} {e : RunFailure}
      (passed : RunState.Acts terms.digest (m.runner env) first s)
      (found : target.Found terms.digest s.tree s.store terms.skipped terms.globalExcludes
        (.error e)) :
      Trouble m env terms first log target e
  | escaped {j : Job} {world : FileTree × σ} {err : RunError} {e : RunFailure}
      (mine : j.target = target) (called : .called j.call (m.run env j.call world).1 ∈ log)
      (escapes : j.call.Escapes env (m.tree world) (m.run env j.call world).1.spawned err)
      (failure : err.toRunFailure? = some e) : Trouble m env terms first log target e
  | unread {j : Job} {world : FileTree × σ} {output : String} {n : Text.NumeralTooLong}
      (mine : j.target = target) (called : .called j.call (m.run env j.call world).1 ∈ log)
      (written : Job.written? (m.run env j.call world).1.result = some output)
      (long : Grammar.parseOutput target.grammars target.name output = .error n) :
      Trouble m env terms first log target (.numeral n)
  | unrecorded {j : Job} {world : FileTree × σ} {t : FileTree} {o : Outcome}
      {e : FileTree.PathError} (mine : j.target = target)
      (called : .called j.call (m.run env j.call world).1 ∈ log)
      (delivers : j.Delivers (m.run env j.call world).1.result o)
      (record : j.recordIn terms.digest t o = .error e) :
      Trouble m env terms first log target (.path e)

section

variable {m : Machine (FileTree × σ)} {env : Environment} {terms : Terms σ} {first : RunState σ}
  {log : List Event} {target : Target} {slot : Slot}

/-- The outcome of a slot is one that its target came to. -/
theorem Slot.Traces.delivered {o : Outcome} (hrunner : terms.runner = m.runner env)
    (h : slot.Traces terms first log target) (hresult : slot.result = .ok o) :
    target.Delivered m env log o := by
  cases slot with
  | idle o' =>
    obtain rfl : o' = o := Except.ok.inj hresult
    obtain ⟨s, -, hfound⟩ := h.found
    cases hfound with
    | nothing => exact .skipped
    | spared _ nonempty => exact .cached nonempty
  | job j progress =>
    have hcalled := h.called j progress rfl
    cases progress with
    | ended ended =>
      obtain rfl : ended = .ok o := hresult
      obtain ⟨world, before, t, hmem, hends⟩ := hcalled
      rw [hrunner] at hmem hends
      exact .ran h.target_eq hmem hends.delivers
    | _ => exact nomatch hresult

/-- A job that ended without an outcome met trouble. -/
theorem Slot.Traces.trouble {j : Job} {e : RunFailure} (hrunner : terms.runner = m.runner env)
    (h : (Slot.job j (.ended (.error e))).Traces terms first log target) :
    target.Trouble m env terms first log e := by
  obtain rfl := h.target_eq
  obtain ⟨world, before, t, hmem, hends⟩ := h.called j _ rfl
  rw [hrunner] at hmem hends
  cases hends with
  | unread outcome =>
    rcases Job.outcome_error outcome with
      ⟨err, hresult, hfailure⟩ | ⟨output, n, hwritten, hlong, rfl⟩
    · rcases Machine.run_error hresult with ⟨f, rfl⟩ | hescapes
      · exact nomatch hfailure
      · exact .escaped rfl hmem hescapes hfailure
    · exact .unread rfl hmem hwritten hlong
  | unrecorded outcome record => exact .unrecorded rfl hmem (Job.delivers_of_outcome outcome) record

end

/-! ### Whole runs -/

namespace FileTree

/-- Every linter has its outcome, in order of declaration, unless the configuration is refused or
one of the linters meets trouble that is no failure of a command. -/
theorem delivers_or_trouble (m : Machine (FileTree × σ)) (env : Environment)
    (setup : RunSetup σ) (hrunner : setup.runner = m.runner env)
    (hschedule : ∀ count, Turn.Completes count (setup.schedule count)) (options : RunOptions)
    (c : Config) (t : FileTree) (x : σ) :
    let r := t.run setup options c x
    match r.outcomes with
    | .ok outcomes => outcomes.map (·.program) = c.linters.map (·.name) ∧
        List.Forall₂ (fun s o => ∃ target, t.Aims setup.digest setup.homes c.root s target ∧
          target.Delivered m env r.state.log o) c.linters outcomes
    | .error e => t.prepare setup.digest setup.homes (options.jobCount c) c = .error e ∨
        ∃ targets cacheDir skipped opening, ∃ target ∈ targets,
          t.prepare setup.digest setup.homes (options.jobCount c) c =
            .ok (targets, cacheDir, skipped) ∧
          target.Trouble m env (setup.terms (options.jobCount c) c skipped)
            ⟨t, x, options.storeFor c cacheDir, opening⟩ r.state.log e := by
  intro r
  cases hprepare : t.prepare setup.digest setup.homes (options.jobCount c) c with
  | error e =>
    have hr : r.outcomes = .error e := by simp only [r, run, hprepare]
    simp only [hr]
    exact .inl trivial
  | ok found =>
    obtain ⟨targets, cacheDir, skipped⟩ := found
    have haims := (prepare_spec hprepare).1
    have hr := run_eq setup options c t x hprepare
    dsimp only at hr
    have hcalm : (setup.terms (options.jobCount c) c skipped).runner.Uninterrupted := by
      have hmachine := m.runner_uninterrupted env
      rwa [← hrunner] at hmachine
    -- All turns were made, and every slot can be traced back.
    obtain ⟨opening, -, htraced⟩ := traced_finalPool setup (options.jobCount c) c skipped targets
      ⟨t, x, options.storeFor c cacheDir, []⟩
    have hdone : (finalPool setup (options.jobCount c) c skipped targets
        ⟨t, x, options.storeFor c cacheDir, []⟩).IsDone :=
      Pool.isDone_run hcalm (hschedule _)
    generalize finalPool setup (options.jobCount c) c skipped targets
      ⟨t, x, options.storeFor c cacheDir, []⟩ = p at *
    have houtcomes : r.outcomes = p.outcomes := congrArg RunResult.outcomes hr
    have hlog : ∀ e ∈ p.state.log, e ∈ r.state.log := by
      have hstate : r.state = p.state.say p.closing := congrArg RunResult.state hr
      exact fun e he => hstate ▸ List.mem_append_left _ he
    obtain ⟨looked, hlooked, hslots⟩ := htraced.slots
    have hslots := hslots.imp fun _ _ htrace => htrace.mono hlog
    cases hresult : p.outcomes with
    | ok outcomes =>
      obtain ⟨-, hleft, hended⟩ := Pool.forall₂_of_outcomes hresult
      obtain rfl : targets = looked := by rw [hlooked, hleft, List.append_nil]
      have hdelivered : List.Forall₂ (fun s o => ∃ target,
          t.Aims setup.digest setup.homes c.root s target ∧
            target.Delivered m env r.state.log o) c.linters outcomes :=
        forall₂_comp haims (forall₂_comp hslots hended
          fun _ _ _ htrace hslot => htrace.delivered hrunner hslot)
          fun _ target _ haim hdelivered => ⟨target, haim, hdelivered⟩
      simp only [houtcomes, hresult]
      refine ⟨?_, hdelivered⟩
      refine (map_eq_map_of_forall₂ hdelivered ?_).symm
      rintro s o ⟨target, haim, htarget⟩
      rw [htarget.program, Target.name, haim.settings]
    | error e =>
      simp only [houtcomes, hresult]
      refine .inr ⟨targets, cacheDir, skipped, [opening], ?_⟩
      -- A target could not be looked at, a job ended without an outcome, or turns are left, which
      -- none are.
      rcases Pool.exists_of_outcomes hresult with hfailure | ⟨slot, hslot, hslotResult⟩ | hopen
      · obtain ⟨target, hmem, s, hacts, hfound⟩ := htraced.failure e hfailure
        rw [show (setup.terms (options.jobCount c) c skipped).runner = m.runner env from hrunner]
          at hacts
        exact ⟨target, hmem, rfl, .looked hacts hfound⟩
      · obtain ⟨target, hmem, htrace⟩ := exists_of_mem_forall₂ hslots hslot
        have hmem : target ∈ targets := hlooked ▸ List.mem_append_left _ hmem
        obtain ⟨j, rfl⟩ := Slot.eq_ended_of_rank (hdone.ended slot hslot) hslotResult
        exact ⟨target, hmem, rfl, htrace.trouble hrunner⟩
      · exact absurd (hdone.looked hopen.1) hopen.2

/-- The executable of the first of two linters does not exist, which is an outcome of that linter;
the other one passes. -/
theorem delivers_or_trouble_missing_executable :
    ∃ outcomes, (Sample.tree.run Sample.setup
        (Sample.options none)
        (Sample.config false [Sample.linter "a" "/y", Sample.linter "b" "/x"]) ()).outcomes =
          .ok outcomes ∧
      outcomes.map (·.status) = [.error, .ok] ∧ outcomes.map (·.program) = ["a", "b"] := by
  have h := delivers_or_trouble Sample.machine Sample.environment
    Sample.setup rfl completes_inOrder
    (Sample.options none)
    (Sample.config false [Sample.linter "a" "/y", Sample.linter "b" "/x"]) Sample.tree ()
  have hstatus : (Sample.tree.run Sample.setup
      (Sample.options none)
      (Sample.config false [Sample.linter "a" "/y", Sample.linter "b" "/x"])
      ()).outcomes.map (·.map (·.status)) = .ok [.error, .ok] := by cbv
  obtain ⟨outcomes, houtcomes, hstatus⟩ := Except.map_eq_ok_iff.mp hstatus
  simp only [houtcomes] at h
  exact ⟨outcomes, houtcomes, hstatus, h.1⟩

/-- The first of two linters names a command in the home directory of nobody. The run ends without
any outcome, although the other linter would have passed. -/
theorem ends_of_unknown_home :
    (Sample.tree.run Sample.setup (Sample.options none)
        (Sample.config false [Sample.linter "a" "~nobody/x", Sample.linter "b" "/x"]) ()).outcomes =
          .error (.home .unknown) ∧
      (Sample.tree.run Sample.setup
        (Sample.options none) (Sample.config false [Sample.linter "b" "/x"]) ()).outcomes.map
          (·.map (·.status)) = .ok [.ok] := by
  constructor
  · cbv
  · cbv

end FileTree

end LinterSuite
