import LinterSuite.Proofs.Run.Accord
import LinterSuite.Proofs.Run.Completion
import LinterSuite.Proofs.Run.Reports

/-!
# What a run calls

A run calls the commands of the jobs that were begun, each once, and no others, and its log tells
what came of each. If the user interrupts none of them, all jobs are brought to an end.

## Main definitions

* `Event.reports`: the commands that were run, with what came of them
* `Slot.call?`, `Slot.called?`: the call of a job, and that of a job whose command was run
* `Slot.Reported`: a slot with the report on its command, if it was run
* `RunResult.Uninterrupted`: a run of which no command was interrupted
* `RunResult.Collects`: a run with the pool that it comes from

## Main results

* `Pool.reported_run`: the reports of a log are those of the slots, one for each command
* `Pool.calls_run`: a run calls the commands of the jobs that were begun
* `FileTree.collects_finalPool`, `FileTree.exists_pool_of_run`: the pool of a run
* `FileTree.uninterrupted_of_runner`: no run is interrupted if the runner is never
-/

namespace LinterSuite

variable {σ : Type}

/-! ### Reports in a log -/

namespace Event

/-- The commands that were run, with what came of them, in order. -/
def reports (log : List Event) : List (RunCall × RunReport) :=
  log.filterMap fun
    | called call report => some (call, report)
    | _ => none

theorem reports_append (xs ys : List Event) : reports (xs ++ ys) = reports xs ++ reports ys :=
  List.filterMap_append

theorem map_reports (log : List Event) : (reports log).map (·.1) = calls log := by
  rw [reports, calls, List.map_filterMap]
  congr
  funext e
  cases e <;> rfl

theorem reports_eq_nil {log : List Event} (h : calls log = []) : reports log = [] :=
  List.map_eq_nil_iff.mp ((map_reports log).trans h)

end Event

/-- What is said aside reports on no command. -/
theorem RunState.reports_say (s : RunState σ) {events : List Event} (h : Event.Aside events) :
    Event.reports (s.say events).log = Event.reports s.log := by
  rw [say, Event.reports_append, Event.reports_eq_nil h.noCalls, List.append_nil]

/-- The end of a job reports on no command. -/
theorem Job.Settles.reports {digest : Digest} {j : Job} {before : Observation}
    {result : Except RunError RawOutput} {s s' : RunState σ} {ended : Except RunFailure Outcome}
    (h : j.Settles digest before result s ended s') :
    Event.reports s'.log = Event.reports s.log := by
  have hwarned := s.reports_say (j.aside_warnings result)
  cases h with
  | unread | unrecorded => exact hwarned
  | recorded _ _ aside => exact (RunState.reports_say _ aside).trans hwarned

/-! ### Calls of a run -/

namespace Slot

/-- The call of a job. -/
def call? : Slot → Option RunCall
  | idle _ => none
  | job j _ => some j.call

/-- The call of a job whose command was run. -/
def called? : Slot → Option RunCall
  | job j (.returned ..) | job j (.ended _) => some j.call
  | _ => none

theorem called?_of_isNew {slot : Slot} (h : slot.IsNew) : slot.called? = none := by
  cases slot with
  | idle => rfl
  | job j progress =>
    obtain rfl : progress = .waiting := h
    rfl

/-- What was called are calls of jobs. -/
theorem sublist_called? (slots : List Slot) :
    (slots.filterMap called?).Sublist (slots.filterMap call?) := by
  induction slots with
  | nil => exact List.nil_sublist _
  | cons slot slots ih =>
    rw [List.filterMap_cons, List.filterMap_cons]
    rcases slot with _ | ⟨j, _ | _ | _ | _⟩
    · exact ih
    · exact ih.cons _
    · exact ih.cons _
    · exact ih.cons_cons _
    · exact ih.cons_cons _

/-- A job that has ended was called. -/
theorem called?_of_rank {slot : Slot} (h : slot.rank = stepsOfJob) : slot.called? = slot.call? := by
  rcases slot with _ | ⟨j, _ | _ | _ | _⟩
  · rfl
  · exact nomatch h
  · exact nomatch h
  · exact nomatch h
  · rfl

@[simp] theorem call?_start (slot : Slot) : slot.start.call? = slot.call? := by
  cases slot <;> rfl

end Slot

/-- A slot with the report on its command, if it was run. -/
inductive Slot.Reported (terms : Terms σ) : Option (RunCall × RunReport) → Slot → Prop
  | uncalled {slot : Slot} (h : slot.called? = none) : Reported terms none slot
  | returned {j : Job} {before : Observation} {result : Except RunError RawOutput}
      {world : FileTree × σ} (h : (terms.runner j.call world).1.result = result) :
      Reported terms (some (j.call, (terms.runner j.call world).1))
        (.job j (.returned before result))
  | ended {j : Job} {before : Observation} {t : FileTree} {ended : Except RunFailure Outcome}
      {world : FileTree × σ}
      (h : j.EndsWith terms.digest before (terms.runner j.call world).1.result t ended) :
      Reported terms (some (j.call, (terms.runner j.call world).1)) (.job j (.ended ended))

theorem Slot.Reported.called? {terms : Terms σ} {report : Option (RunCall × RunReport)}
    {slot : Slot} (h : slot.Reported terms report) : report.map (·.1) = slot.called? := by
  cases h with
  | uncalled hnone => exact hnone.symm
  | returned | ended => rfl

namespace Pool

variable {terms : Terms σ} {p p' : Pool σ}

/-- The reports of a log are those of the slots, one for each command. -/
def Reported (terms : Terms σ) (p : Pool σ) : Prop :=
  ∃ reports, List.Forall₂ (Slot.Reported terms) reports p.slots ∧
    (Event.reports p.state.log).Perm (reports.filterMap id)

theorem Reported.moves (h : p.Reported terms) (hmove : Moves terms p p') : p'.Reported terms := by
  obtain ⟨reports, hslots, hlog⟩ := h
  -- To look at a target reports on no command.
  have hlooked : ∀ target, Event.reports (p.state.say (p.slotOf terms target).1).log =
      Event.reports p.state.log := fun _ => RunState.reports_say _ (aside_slot ..)
  cases hmove with
  | rest => exact ⟨reports, hslots, hlog⟩
  | @refuse target _ _ _ _ _ found =>
    have hsaid := hlooked target
    rw [found] at hsaid
    exact ⟨reports, hslots, hsaid.symm ▸ hlog⟩
  | @enter target _ _ slot _ _ found =>
    have hsaid := hlooked target
    rw [found] at hsaid
    have hnew := Slot.called?_of_isNew (found_slotOf found).isNew
    refine ⟨reports ++ [none], List.rel_append hslots (.cons (.uncalled hnew) .nil), ?_⟩
    rw [hsaid, List.filterMap_append]
    simpa using hlog
  | @observe place j here =>
    refine ⟨reports, forall₂_set hslots here fun report _ hreport => ?_, hlog⟩
    cases hreport with
    | uncalled => exact .uncalled rfl
  | @call place j before here =>
    -- A job that was not called yet has no report.
    obtain ⟨report, hreport, hcalled⟩ := exists_getElem?_of_forall₂ hslots here
    obtain rfl : report = none := by
      cases hcalled
      rfl
    let report := (terms.runner j.call (p.state.tree, p.state.runner)).1
    refine ⟨reports.set place (some (j.call, report)), forall₂_set_set hslots (.returned rfl), ?_⟩
    have hcalls : Event.reports (p.state.afterCall terms.runner j.call).log =
        Event.reports p.state.log ++ [(j.call, report)] := Event.reports_append ..
    rw [hcalls]
    -- The report is the last in the log, and somewhere among those of the slots.
    have hlast := (List.perm_append_singleton (j.call, report) _).trans (hlog.cons _)
    exact hlast.trans (perm_filterMap_set hreport rfl rfl)
  | @settle place j before result ended s here settles =>
    refine ⟨reports, forall₂_set hslots here fun report _ hreport => ?_, settles.reports ▸ hlog⟩
    cases hreport with
    | uncalled hnone => cases hnone
    | returned hresult => exact .ended (hresult ▸ settles.endsWith)

/-- A run that begins without reports has one for each command that it runs. -/
theorem reported_run (terms : Terms σ) (targets : List Target) {s : RunState σ}
    (hs : Event.reports s.log = []) (schedule : List Turn) :
    ((fresh targets s).run terms schedule).Reported terms :=
  run_induction (motive := Reported terms) ⟨[], .nil, by simp [fresh, hs]⟩
    (fun _ _ hmove h => h.moves hmove) schedule

/-- A run that begins without calls calls the commands of the jobs that were begun. -/
theorem calls_run (terms : Terms σ) (targets : List Target) {s : RunState σ}
    (hs : Event.calls s.log = []) (schedule : List Turn) :
    (Event.calls ((fresh targets s).run terms schedule).state.log).Perm
      (((fresh targets s).run terms schedule).slots.filterMap Slot.called?) := by
  obtain ⟨reports, hslots, hlog⟩ :=
    reported_run terms targets (Event.reports_eq_nil hs) schedule
  -- The calls are what the reports are on, in the log and in the slots.
  have hcalled : reports.map (·.map (·.1)) =
      ((fresh targets s).run terms schedule).slots.map Slot.called? :=
    map_eq_map_of_forall₂ hslots fun _ _ h => h.called?
  have hcalls : (reports.filterMap id).map (·.1) =
      ((fresh targets s).run terms schedule).slots.filterMap Slot.called? := by
    calc (reports.filterMap id).map (·.1)
        = (reports.map (·.map (·.1))).filterMap id := by
          rw [List.map_filterMap, List.filterMap_map]
          rfl
      _ = _ := by
          rw [hcalled, List.filterMap_map]
          rfl
  rw [← Event.map_reports, ← hcalls]
  exact hlog.map _

/-- A run in which nothing is left to be done has its outcomes, unless a target could not be looked
at or a job ended without one. -/
theorem IsDone.exists_of_outcomes {e : RunFailure} (hdone : p.IsDone)
    (houtcomes : p.outcomes = .error e) :
    p.failure = some e ∨ ∃ j, .job j (.ended (.error e)) ∈ p.slots := by
  rcases Pool.exists_of_outcomes houtcomes with hfailure | ⟨slot, hslot, hresult⟩ | ⟨hnone, hleft⟩
  · exact .inl hfailure
  · obtain ⟨j, rfl⟩ := Slot.eq_ended_of_rank (hdone.ended slot hslot) hresult
    exact .inr ⟨j, hslot⟩
  · exact absurd (hdone.looked hnone) hleft

/-- Where there are outcomes, nothing is left to be done. -/
theorem isDone_of_outcomes {outcomes : List Outcome} (h : p.outcomes = .ok outcomes) :
    p.IsDone := by
  obtain ⟨-, hleft, hresults⟩ := forall₂_of_outcomes h
  refine ⟨fun _ => hleft, fun slot hslot => ?_⟩
  obtain ⟨o, -, hresult⟩ := exists_of_mem_forall₂ hresults.flip hslot
  rcases slot with _ | ⟨j, _ | _ | _ | _⟩
  · rfl
  · exact nomatch hresult
  · exact nomatch hresult
  · exact nomatch hresult
  · rfl

/-- What is reported tells of no call. -/
theorem calls_closing (p : Pool σ) : Event.calls p.closing = [] := by
  have hreported : ∀ outcomes, Event.calls (Outcome.reportEvents outcomes) = [] := by
    intro outcomes
    simp [Event.calls, Outcome.reportEvents, List.filterMap_flatMap]
  have hclosing : ∀ count failure, Event.calls (closingEvents count failure) = [] := by
    intro count failure
    unfold closingEvents
    split <;> rfl
  unfold closing
  split
  · rfl
  · rw [Event.calls_append, hreported, hclosing]
    rfl

end Pool

/-! ### Interruptions -/

/-- A run of which the user interrupted no command. -/
def RunResult.Uninterrupted (r : RunResult σ) : Prop :=
  ∀ call report, .called call report ∈ r.state.log → report.result ≠ .error .interrupted

/-- A run with the pool that it comes from: it calls the commands of the jobs that were begun, and
of no others, and the pool leaves nothing to be done if the run is not interrupted. -/
structure RunResult.Collects (r : RunResult σ) (p : Pool σ) : Prop where
  outcomes : r.outcomes = p.outcomes
  saved : (r.state.store, r.state.tree) = (p.state.store, p.state.tree)
  calls : (Event.calls r.state.log).Perm (p.slots.filterMap Slot.called?)
  uninterrupted : r.Uninterrupted → p.Uninterrupted
  done : p.Uninterrupted → p.IsDone

/-- A job was interrupted only if the log tells so. -/
theorem Slot.Traces.uninterrupted {terms : Terms σ} {first : RunState σ} {log : List Event}
    {target : Target} {slot : Slot} (h : slot.Traces terms first log target)
    (hlog : ∀ call report, .called call report ∈ log → report.result ≠ .error .interrupted) :
    slot.Uninterrupted := by
  cases slot with
  | idle => trivial
  | job j progress =>
    have hcalled := h.called j progress rfl
    cases progress with
    | waiting | observed => trivial
    | returned before result =>
      obtain ⟨world, hmem, rfl⟩ := hcalled
      exact hlog _ _ hmem
    | ended ended =>
      obtain ⟨world, before, t, hmem, hends⟩ := hcalled
      intro hinterrupted
      obtain rfl : ended = .error .interrupted := hinterrupted
      cases hends with
      | unread outcome => exact Job.outcome_ne_interrupted (hlog _ _ hmem) outcome

/-- What a log tells of a call is a report of the runner. -/
theorem RunState.Acts.exists_world {digest : Digest} {runner : Runner σ} {s s' : RunState σ}
    (h : Acts digest runner s s') {call : RunCall} {report : RunReport}
    (hmem : .called call report ∈ s'.log) :
    .called call report ∈ s.log ∨ ∃ world, report = (runner call world).1 := by
  induction h with
  | refl => exact .inl hmem
  | tail _ hact ih =>
    cases hact with
    | say aside =>
      rcases List.mem_append.mp hmem with hmem | hmem
      · exact ih hmem
      · have hcall : call ∈ Event.calls _ := List.mem_filterMap.mpr ⟨_, hmem, rfl⟩
        rw [aside.noCalls] at hcall
        exact absurd hcall List.not_mem_nil
    | call =>
      rcases List.mem_append.mp hmem with hmem | hmem
      · exact ih hmem
      · obtain ⟨rfl, rfl⟩ := Event.called.inj (List.mem_singleton.mp hmem)
        exact .inr ⟨_, rfl⟩
    | save => exact ih hmem

namespace FileTree

variable (setup : RunSetup σ) (options : RunOptions) (c : Config) (t : FileTree) (x : σ)

/-- No command of a run is interrupted if the runner is never. -/
theorem uninterrupted_of_runner (h : setup.runner.Uninterrupted) :
    (t.run setup options c x).Uninterrupted := by
  intro call report hmem
  cases hprepare : t.prepare setup.digest setup.homes (options.jobCount c) c with
  | error e =>
    simp only [run, hprepare] at hmem
    exact absurd hmem List.not_mem_nil
  | ok found =>
    obtain ⟨targets, cacheDir, skipped⟩ := found
    rw [run_eq setup options c t x hprepare] at hmem
    rcases List.mem_append.mp hmem with hmem | hmem
    · have hacts := Pool.acts_run (setup.terms (options.jobCount c) c skipped)
        (setup.schedule targets.length) (Pool.fresh targets (RunState.say
          ⟨t, x, options.storeFor c cacheDir, []⟩ [.noted .run
            s!"running {targets.length} linter(s) with {options.jobCount c} job(s)"]))
      rcases hacts.exists_world hmem with hmem | ⟨world, rfl⟩
      · simp [Pool.fresh, RunState.say] at hmem
      · exact h call world
    · have hcall : call ∈ Event.calls _ := List.mem_filterMap.mpr ⟨_, hmem, rfl⟩
      rw [Pool.calls_closing] at hcall
      exact absurd hcall List.not_mem_nil

/-- A run and the pool that it comes from. -/
theorem collects_finalPool {targets : List Target} {cacheDir skipped : Path}
    (hprepare : t.prepare setup.digest setup.homes (options.jobCount c) c =
      .ok (targets, cacheDir, skipped))
    (hcomplete : ∀ count, Turn.Completes count (setup.schedule count)) :
    (t.run setup options c x).Collects (finalPool setup (options.jobCount c) c skipped targets
      ⟨t, x, options.storeFor c cacheDir, []⟩) := by
  rw [run_eq setup options c t x hprepare]
  refine ⟨rfl, rfl, ?_, fun hcalm slot hslot => ?_, Pool.isDone_of_uninterrupted (hcomplete _)⟩
  · dsimp only [RunState.say]
    rw [Event.calls_append, Pool.calls_closing, List.append_nil]
    exact Pool.calls_run _ _ rfl _
  · obtain ⟨opening, -, htraced⟩ := traced_finalPool setup (options.jobCount c) c skipped targets
      ⟨t, x, options.storeFor c cacheDir, []⟩
    obtain ⟨looked, -, hslots⟩ := htraced.slots
    obtain ⟨target, -, htrace⟩ := exists_of_mem_forall₂ hslots hslot
    exact htrace.uninterrupted fun call report hmem =>
      hcalm call report (List.mem_append_left _ hmem)

/-- The pool of a run from an outset with a store out of the way. -/
theorem exists_pool_of_run {answers : RunCall → Except RunError RawOutput → Prop} (a : Outset)
    {cacheDir skipped : Path} (hprepare : a.tree.prepare setup.digest setup.homes
      (options.jobCount c) c = .ok (a.targets, cacheDir, skipped))
    (hstore : options.storeFor c cacheDir = a.store)
    (hfit : (setup.terms (options.jobCount c) c skipped).Fit a) (hsteady : a.IsSteady)
    (hdistinct : a.names.Nodup) (hgives : setup.runner.Gives answers)
    (hcomplete : ∀ count, Turn.Completes count (setup.schedule count)) :
    ∃ (p : Pool σ) (rs : List RunRecord), p.Accords a answers rs ∧
      (a.tree.run setup options c x).Collects p := by
  obtain ⟨rs, haccords⟩ := accords_finalPool setup hgives (options.jobCount c) c skipped a hfit
    hsteady hdistinct x []
  rw [← hstore] at haccords
  exact ⟨_, rs, haccords, collects_finalPool setup options c a.tree x hprepare hcomplete⟩

end FileTree

end LinterSuite
