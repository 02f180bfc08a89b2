import LinterSuite.Proofs.Fallible
import LinterSuite.Proofs.Members
import LinterSuite.Proofs.Run.Turns

/-!
# Traces of a run

Every slot of a run goes back to a state that the run passed through: the target was looked at
there, and either needed no run or was given a job. Every job that has ended goes back to a call of
its command, which the log tells of.

## Main definitions

* `Target.Found`: what can be found out about a target
* `Job.Delivers`: the outcome that the result of a command comes to
* `Job.EndsWith`: how a job may end after the result of its command
* `Slot.Traces`: a slot that goes back to a target and to a call

## Main results

* `Pool.found_slotOf`: looking at a target finds one of these things out
* `Job.delivers_of_outcome`: failures to run a command are outcomes of the linter
* `Pool.traced_run`: every slot of a run can be traced back
-/

namespace LinterSuite

variable {σ : Type}

/-! ### Looking at a target -/

/-- What can be found out about a target. -/
inductive Target.Found (digest : Digest) (t : FileTree) (store : CacheStore) (skipped : List Path)
    (globalExcludes : List String) (target : Target) : Except RunFailure Slot → Prop
  | unselected {e : SelectionError}
      (select : t.select skipped target.settings target.workDir globalExcludes = .error e) :
      Found digest t store skipped globalExcludes target (.error e.toRunFailure)
  | nothing {selection : Selection}
      (select : t.select skipped target.settings target.workDir globalExcludes = .ok selection)
      (empty : selection.files = []) :
      Found digest t store skipped globalExcludes target
        (.ok (.idle (.idle target.name .skipped [])))
  | unknown {selection : Selection} {e : CacheError}
      (select : t.select skipped target.settings target.workDir globalExcludes = .ok selection)
      (nonempty : selection.files ≠ [])
      (verdict : store.verdict digest t target.name (Job.paths ⟨target, selection.files⟩)
        target.settings.checkHash target.fingerprint = .error e) :
      Found digest t store skipped globalExcludes target (.error e.toRunFailure)
  | spared {selection : Selection}
      (select : t.select skipped target.settings target.workDir globalExcludes = .ok selection)
      (nonempty : selection.files ≠ [])
      (verdict : store.verdict digest t target.name (Job.paths ⟨target, selection.files⟩)
        target.settings.checkHash target.fingerprint = .ok .unchanged) :
      Found digest t store skipped globalExcludes target
        (.ok (.idle (.idle target.name .cached selection.files)))
  | due {selection : Selection} {v : Verdict}
      (select : t.select skipped target.settings target.workDir globalExcludes = .ok selection)
      (nonempty : selection.files ≠ [])
      (verdict : store.verdict digest t target.name (Job.paths ⟨target, selection.files⟩)
        target.settings.checkHash target.fingerprint = .ok v) (mustRun : v ≠ .unchanged) :
      Found digest t store skipped globalExcludes target
        (.ok (.job ⟨target, selection.files⟩ .waiting))

/-- Looking at a target finds one of these things out. -/
theorem FileTree.found_slot (digest : Digest) (t : FileTree) (store : CacheStore)
    (skipped : List Path) (globalExcludes : List String) (target : Target) :
    target.Found digest t store skipped globalExcludes
      (t.slot digest store skipped globalExcludes target).2 := by
  unfold slot
  split
  · next e select => exact .unselected select
  · next selection select =>
    dsimp only
    split
    · next empty => exact .nothing select (List.isEmpty_iff.mp empty)
    · next nonempty =>
      have nonempty : selection.files ≠ [] := mt List.isEmpty_iff.mpr nonempty
      split
      · next e verdict => exact .unknown select nonempty verdict
      · next v verdict =>
        by_cases hv : v = .unchanged
        · subst hv
          exact .spared select nonempty verdict
        · have hmust : v.mustRun = true := by simpa [Verdict.mustRun] using hv
          simp only [hmust, if_true]
          exact .due select nonempty verdict hv

theorem Pool.found_slotOf {terms : Terms σ} {p : Pool σ} {target : Target} {events : List Event}
    {found : Except RunFailure Slot} (h : p.slotOf terms target = (events, found)) :
    target.Found terms.digest p.state.tree p.state.store terms.skipped terms.globalExcludes
      found := by
  have hfound := FileTree.found_slot terms.digest p.state.tree p.state.store terms.skipped
    terms.globalExcludes target
  rw [slotOf] at h
  rwa [h] at hfound

/-- A slot as it is when its target was just looked at. -/
def Slot.IsNew : Slot → Prop
  | idle _ => True
  | job _ progress => progress = .waiting

theorem Target.Found.isNew {digest : Digest} {t : FileTree} {store : CacheStore}
    {skipped : List Path} {globalExcludes : List String} {target : Target} {slot : Slot}
    (h : target.Found digest t store skipped globalExcludes (.ok slot)) : slot.IsNew := by
  cases h with
  | nothing | spared => trivial
  | due => rfl

/-! ### Ends of a job -/

namespace Job

variable {digest : Digest} {j : Job}

/-- The outcome that the result of a command comes to: a command that ran passed or failed by its
exit status, and one that could not be run to its end is an error with a message. -/
inductive Delivers (j : Job) : Except RunError RawOutput → Outcome → Prop
  | ran {raw : RawOutput} {lines : List OutputLine} (modified : List String)
      (read : Grammar.parseOutput j.target.grammars j.name raw.output = .ok lines) :
      Delivers j (.ok raw)
        { program := j.name, status := if raw.success then .ok else .failed
          exitStatus := some raw.exitStatus, output := raw.output, lines, error := none
          files := j.files, modified }
  | failed {f : ExecutionFailure} {lines : List OutputLine}
      (read : Grammar.parseOutput j.target.grammars j.name f.output = .ok lines) :
      Delivers j (.error (.failed f))
        { program := j.name, status := .error, exitStatus := none, output := f.output, lines
          error := some f.message, files := j.files, modified := [] }

theorem Delivers.program {result : Except RunError RawOutput} {o : Outcome}
    (h : j.Delivers result o) : o.program = j.name := by
  cases h <;> rfl

theorem Delivers.files {result : Except RunError RawOutput} {o : Outcome}
    (h : j.Delivers result o) : o.files = j.files := by
  cases h <;> rfl

/-- What was run is neither skipped nor spared. -/
theorem Delivers.status {result : Except RunError RawOutput} {o : Outcome}
    (h : j.Delivers result o) : o.status ≠ .skipped ∧ o.status ≠ .cached := by
  cases h with
  | ran =>
    dsimp only
    split <;> simp
  | failed => simp

/-- Failures to run a command are outcomes of the linter. -/
theorem delivers_of_outcome {before after : Observation} {result : Except RunError RawOutput}
    {o : Outcome} (h : j.outcome before after result = .ok o) : j.Delivers result o := by
  cases result with
  | ok raw =>
    obtain ⟨lines, hread, ho⟩ := Except.bind_eq_ok_iff.mp (Except.mapError_eq_ok_iff.mp h)
    obtain rfl := Except.ok.inj ho
    exact .ran _ hread
  | error err =>
    cases err with
    | failed f =>
      obtain ⟨lines, hread, ho⟩ := Except.bind_eq_ok_iff.mp (Except.mapError_eq_ok_iff.mp h)
      obtain rfl := Except.ok.inj ho
      exact .failed hread
    | home | path | nullInArgument | unwaited | interrupted => exact nomatch h

/-- How a job may end after the result of its command, given what its files looked like. -/
inductive EndsWith (digest : Digest) (j : Job) (before : Observation)
    (result : Except RunError RawOutput) (t : FileTree) : Except RunFailure Outcome → Prop
  | unread {e : RunFailure} (outcome : j.outcome before (j.observeIn t) result = .error e) :
      EndsWith digest j before result t (.error e)
  | unrecorded {o : Outcome} {e : FileTree.PathError}
      (outcome : j.outcome before (j.observeIn t) result = .ok o)
      (record : j.recordIn digest t o = .error e) :
      EndsWith digest j before result t (.error (.path e))
  | recorded {o : Outcome} {r : RunRecord}
      (outcome : j.outcome before (j.observeIn t) result = .ok o)
      (record : j.recordIn digest t o = .ok r) :
      EndsWith digest j before result t (.ok o)

theorem Settles.endsWith {before : Observation} {result : Except RunError RawOutput}
    {s s' : RunState σ} {ended : Except RunFailure Outcome}
    (h : j.Settles digest before result s ended s') :
    j.EndsWith digest before result s.tree ended := by
  cases h with
  | unread outcome => exact .unread outcome
  | unrecorded outcome record => exact .unrecorded outcome record
  | recorded outcome record => exact .recorded outcome record

theorem EndsWith.delivers {before : Observation} {result : Except RunError RawOutput}
    {t : FileTree} {o : Outcome} (h : j.EndsWith digest before result t (.ok o)) :
    j.Delivers result o := by
  cases h with
  | recorded outcome => exact delivers_of_outcome outcome

end Job

/-! ### Slots -/

namespace Slot

variable {terms : Terms σ} {log : List Event}

/-- A job that goes back to a call in a log once its command was run. -/
def TracesCall (terms : Terms σ) (log : List Event) (j : Job) : JobState → Prop
  | .waiting | .observed _ => True
  | .returned _ result => ∃ world, .called j.call (terms.runner j.call world).1 ∈ log ∧
      (terms.runner j.call world).1.result = result
  | .ended ended => ∃ world before t, .called j.call (terms.runner j.call world).1 ∈ log ∧
      j.EndsWith terms.digest before (terms.runner j.call world).1.result t ended

theorem TracesCall.mono {log' : List Event} (hlog : ∀ e ∈ log, e ∈ log') {j : Job}
    {progress : JobState} (h : TracesCall terms log j progress) :
    TracesCall terms log' j progress := by
  cases progress with
  | waiting | observed => trivial
  | returned =>
    obtain ⟨world, hmem, hresult⟩ := h
    exact ⟨world, hlog _ hmem, hresult⟩
  | ended =>
    obtain ⟨world, before, t, hmem, hends⟩ := h
    exact ⟨world, before, t, hlog _ hmem, hends⟩

/-- A slot as it was when its target was looked at. -/
def start : Slot → Slot
  | idle o => idle o
  | job j _ => job j .waiting

theorem start_of_isNew {slot : Slot} (h : slot.IsNew) : slot.start = slot := by
  cases slot with
  | idle => rfl
  | job j progress =>
    obtain rfl : progress = .waiting := h
    rfl

/-- A slot that goes back to a target, in a state that a run passed through, and to a call. -/
structure Traces (terms : Terms σ) (first : RunState σ) (log : List Event) (target : Target)
    (slot : Slot) : Prop where
  found : ∃ s, RunState.Acts terms.digest terms.runner first s ∧
    target.Found terms.digest s.tree s.store terms.skipped terms.globalExcludes (.ok slot.start)
  called : ∀ j progress, slot = .job j progress → TracesCall terms log j progress

theorem Traces.mono {first : RunState σ} {log' : List Event} {target : Target}
    {slot : Slot} (hlog : ∀ e ∈ log, e ∈ log') (h : slot.Traces terms first log target) :
    slot.Traces terms first log' target :=
  ⟨h.found, fun j progress hslot => (h.called j progress hslot).mono hlog⟩

/-- A job is one of its target. -/
theorem Traces.target_eq {first : RunState σ} {target : Target} {j : Job} {progress : JobState}
    (h : (Slot.job j progress).Traces terms first log target) : j.target = target := by
  obtain ⟨s, -, hfound⟩ := h.found
  cases hfound with
  | due => rfl

/-- An outcome names the linter of its target. -/
theorem Traces.program {first : RunState σ} {target : Target} {slot : Slot} {o : Outcome}
    (h : slot.Traces terms first log target) (hresult : slot.result = .ok o) :
    o.program = target.name := by
  cases slot with
  | idle o' =>
    obtain rfl : o' = o := Except.ok.inj hresult
    obtain ⟨s, -, hfound⟩ := h.found
    cases hfound with
    | nothing | spared => rfl
  | job j progress =>
    have hcalled := h.called j progress rfl
    cases progress with
    | ended ended =>
      obtain rfl : ended = .ok o := hresult
      obtain ⟨world, before, t, -, hends⟩ := hcalled
      exact hends.delivers.program.trans (congrArg Target.name h.target_eq)
    | _ => exact nomatch hresult

end Slot

namespace Pool

variable {terms : Terms σ} {first : RunState σ} {targets : List Target} {p p' : Pool σ}

/-- A pool whose slots can all be traced back, and its failure too. -/
structure Traced (terms : Terms σ) (first : RunState σ) (targets : List Target) (p : Pool σ) :
    Prop where
  acts : RunState.Acts terms.digest terms.runner first p.state
  slots : ∃ looked, targets = looked ++ p.left ∧
    List.Forall₂ (Slot.Traces terms first p.state.log) looked p.slots
  failure : ∀ e, p.failure = some e → ∃ target ∈ targets, ∃ s,
    RunState.Acts terms.digest terms.runner first s ∧
    target.Found terms.digest s.tree s.store terms.skipped terms.globalExcludes (.error e)

theorem traced_fresh (terms : Terms σ) (targets : List Target) (s : RunState σ) :
    (fresh targets s).Traced terms s targets :=
  ⟨.refl, ⟨[], rfl, .nil⟩, nofun⟩

theorem Traced.moves (h : p.Traced terms first targets) (hmove : Moves terms p p') :
    p'.Traced terms first targets := by
  obtain ⟨hacts, ⟨looked, htargets, hslots⟩, hfailure⟩ := h
  have hacts' := hacts.trans hmove.acts
  -- What was in the log before the move is there after it.
  have hlog : ∀ e ∈ p.state.log, e ∈ p'.state.log := by
    obtain ⟨events, hevents, -⟩ := RunState.Acts.log hmove.acts
    exact fun e he => hevents ▸ List.mem_append_left _ he
  have hslots' : List.Forall₂ (Slot.Traces terms first p'.state.log) looked p.slots :=
    hslots.imp fun _ _ htrace => htrace.mono hlog
  cases hmove with
  | rest => exact ⟨hacts, ⟨looked, htargets, hslots⟩, hfailure⟩
  | @refuse target rest events e going next found =>
    refine ⟨hacts', ⟨looked, htargets, hslots'⟩, ?_⟩
    rintro e' he
    obtain rfl := Option.some.inj he
    exact ⟨target, by simp [htargets, next], p.state, hacts, found_slotOf found⟩
  | @enter target rest events slot going next found =>
    refine ⟨hacts', ⟨looked ++ [target], by simp [htargets, next], ?_⟩, hfailure⟩
    have hfound := found_slotOf found
    refine List.rel_append hslots' (.cons ⟨⟨p.state, hacts, ?_⟩, ?_⟩ .nil)
    · rwa [Slot.start_of_isNew hfound.isNew]
    · rintro j progress rfl
      obtain rfl : progress = .waiting := hfound.isNew
      trivial
  | @observe place j here =>
    refine ⟨hacts', ⟨looked, htargets, forall₂_set hslots' here fun _ _ htrace =>
      ⟨htrace.found, ?_⟩⟩, hfailure⟩
    rintro _ _ ⟨rfl, rfl⟩
    trivial
  | @call place j before here =>
    refine ⟨hacts', ⟨looked, htargets, forall₂_set hslots' here fun _ _ htrace =>
      ⟨htrace.found, ?_⟩⟩, hfailure⟩
    rintro _ _ ⟨rfl, rfl⟩
    exact ⟨_, List.mem_append_right _ List.mem_cons_self, rfl⟩
  | @settle place j before result ended s here settles =>
    refine ⟨hacts', ⟨looked, htargets, forall₂_set hslots' here fun _ _ htrace =>
      ⟨htrace.found, ?_⟩⟩, hfailure⟩
    rintro _ _ ⟨rfl, rfl⟩
    -- The call that returned is in the log, and the job ends with its result.
    obtain ⟨world, hmem, rfl⟩ := htrace.called _ _ rfl
    exact ⟨world, before, _, hmem, settles.endsWith⟩

/-- Every slot of a run can be traced back. -/
theorem traced_run (terms : Terms σ) (targets : List Target) (s : RunState σ)
    (schedule : List Turn) : ((fresh targets s).run terms schedule).Traced terms s targets :=
  run_induction (traced_fresh terms targets s) (fun _ _ hmove h => h.moves hmove) schedule

end Pool

/-- A run begins by saying so, and from there on every slot can be traced back. -/
theorem FileTree.traced_finalPool (setup : RunSetup σ) (jobCount : Int) (c : Config)
    (skipped : Path) (targets : List Target) (s : RunState σ) :
    ∃ opening, Event.Aside [opening] ∧
      (finalPool setup jobCount c skipped targets s).Traced (setup.terms jobCount c skipped)
        (s.say [opening]) targets := by
  refine ⟨.noted .run s!"running {targets.length} linter(s) with {jobCount} job(s)", ⟨rfl, rfl⟩, ?_⟩
  exact Pool.traced_run ..

end LinterSuite
