import LinterSuite.Proofs.Fallible
import LinterSuite.Proofs.Run.Turns

/-!
# Reports of a run

Outcomes are reported after all turns of a run, slot by slot, so the progress of the report is read
off the slots alone, whatever the turns were.

## Main results

* `Slot.forall₂_of_collect`: without a failure, every slot has come to its outcome
* `Event.report_milestones`: the report depends on its progress only
* `FileTree.milestones_run`: a run that is not refused reports its outcomes one after the other
* `FileTree.exists_slot_of_finished`: an outcome that was reported is that of a slot
-/

namespace LinterSuite

variable {σ : Type}

/-! ### Outcomes of slots -/

namespace Slot

variable {slots : List Slot}

/-- Without a failure, every slot has come to its outcome. -/
theorem forall₂_of_collect (h : (collect slots).2 = none) :
    List.Forall₂ (fun slot o => slot.result = .ok o) slots (collect slots).1 := by
  induction slots with
  | nil => exact .nil
  | cons slot slots ih =>
    rw [collect] at h ⊢
    cases hresult : slot.result with
    | error e => simp [hresult] at h
    | ok o =>
      simp only [hresult] at h ⊢
      exact .cons hresult (ih h)

/-- If every slot has come to its outcome, there is no failure. -/
theorem collect_of_forall₂ {outcomes : List Outcome}
    (h : List.Forall₂ (fun slot o => slot.result = .ok o) slots outcomes) :
    collect slots = (outcomes, none) := by
  induction h with
  | nil => rfl
  | cons hresult _ ih =>
    rw [collect, hresult]
    simp only [ih]

/-- Outcomes are those of slots, whether or not all of them can be reported. -/
theorem exists_of_mem_collect {o : Outcome} (h : o ∈ (collect slots).1) :
    ∃ slot ∈ slots, slot.result = .ok o := by
  induction slots with
  | nil => exact absurd h List.not_mem_nil
  | cons slot slots ih =>
    rw [collect] at h
    cases hresult : slot.result with
    | error e => simp [hresult] at h
    | ok o' =>
      simp only [hresult] at h
      rcases List.mem_cons.mp h with rfl | h
      · exact ⟨slot, List.mem_cons_self, hresult⟩
      · obtain ⟨slot', hmem, hslot'⟩ := ih h
        exact ⟨slot', List.mem_cons_of_mem _ hmem, hslot'⟩

/-- A failure is that of a slot. -/
theorem exists_of_collect {e : RunFailure} (h : (collect slots).2 = some e) :
    ∃ slot ∈ slots, slot.result = .error e := by
  induction slots with
  | nil => exact nomatch h
  | cons slot slots ih =>
    rw [collect] at h
    cases hresult : slot.result with
    | error e' =>
      simp only [hresult] at h
      obtain rfl := Option.some.inj h
      exact ⟨slot, List.mem_cons_self, hresult⟩
    | ok o =>
      simp only [hresult] at h
      obtain ⟨slot', hmem, hslot'⟩ := ih h
      exact ⟨slot', List.mem_cons_of_mem _ hmem, hslot'⟩

end Slot

/-! ### Progress of the report -/

namespace Event

theorem mem_milestones_of_finished {log : List Event} {o : Outcome} :
    .finished o ∈ milestones log ↔ .finished o ∈ log := by
  simp [milestones]

/-- The report depends on its progress only. -/
theorem report_milestones (format : Format) (color : Bool) (log : List Event) :
    report format color (milestones log) = report format color log := by
  induction log with
  | nil => rfl
  | cons e log ih =>
    have hcons : ∀ e' log', report format color (e' :: log') =
        reportText format color e' ++ report format color log' := by
      intro e' log'
      simp [report]
    cases e with
    | started | finished | completed =>
      rw [hcons, ← ih, ← hcons]
      rfl
    | noted | selected | called | warned | terminated =>
      -- Other events put nothing on the report.
      rw [hcons, ← ih]
      exact String.empty_append.symm

theorem milestones_reportEvents (outcomes : List Outcome) :
    milestones (Outcome.reportEvents outcomes) = Outcome.reportEvents outcomes := by
  unfold milestones Outcome.reportEvents
  refine List.filter_eq_self.mpr fun e he => ?_
  obtain ⟨o, -, he⟩ := List.mem_flatMap.mp he
  rcases List.mem_cons.mp he with rfl | he
  · rfl
  · obtain rfl := List.mem_singleton.mp he
    rfl

end Event

theorem Outcome.mem_reportEvents {outcomes : List Outcome} {o : Outcome} :
    .finished o ∈ reportEvents outcomes ↔ o ∈ outcomes := by
  simp [reportEvents]

/-! ### The end of a run -/

namespace Pool

variable {p : Pool σ}

/-- Outcomes that are reported are those of slots. -/
theorem exists_slot_of_closing {o : Outcome} (h : .finished o ∈ p.closing) :
    ∃ slot ∈ p.slots, slot.result = .ok o := by
  unfold closing collect at h
  split at h
  · exact absurd h List.not_mem_nil
  · next outcomes failure hcollect =>
    obtain ⟨rfl, -⟩ := Prod.mk.inj hcollect
    rcases List.mem_append.mp h with h | h
    · exact Slot.exists_of_mem_collect (Outcome.mem_reportEvents.mp h)
    · unfold closingEvents at h
      split at h <;> simp at h

/-- Where there are outcomes, every target was looked at, and every slot has come to its own. -/
theorem forall₂_of_outcomes {outcomes : List Outcome} (h : p.outcomes = .ok outcomes) :
    p.failure = none ∧ p.left = [] ∧
      List.Forall₂ (fun slot o => slot.result = .ok o) p.slots outcomes := by
  unfold Pool.outcomes collect at h
  split at h
  · exact nomatch h
  · exact nomatch h
  · next outcomes' hfailure hcollect =>
    obtain rfl := Except.ok.inj h
    obtain ⟨rfl, hnone⟩ := Prod.mk.inj hcollect
    obtain ⟨hslots, hleft⟩ := Option.or_eq_none_iff.mp hnone
    refine ⟨hfailure, ?_, Slot.forall₂_of_collect hslots⟩
    cases hnil : p.left with
    | nil => rfl
    | cons target rest => simp [hnil] at hleft

/-- If every target was looked at, and every slot has come to an outcome, then these are the
outcomes. -/
theorem outcomes_of_forall₂ {outcomes : List Outcome} (hfailure : p.failure = none)
    (hleft : p.left = []) (h : List.Forall₂ (fun slot o => slot.result = .ok o) p.slots outcomes) :
    p.outcomes = .ok outcomes := by
  unfold Pool.outcomes collect
  rw [hfailure, Slot.collect_of_forall₂ h, hleft]
  rfl

/-- Where there are none, something is wrong with a target, or with a slot, or not all targets were
looked at. -/
theorem exists_of_outcomes {e : RunFailure} (h : p.outcomes = .error e) :
    p.failure = some e ∨ (∃ slot ∈ p.slots, slot.result = .error e) ∨
      (p.failure = none ∧ p.left ≠ []) := by
  unfold Pool.outcomes collect at h
  split at h
  · next e' _ hfailure =>
    obtain rfl := Except.error.inj h
    exact .inl hfailure
  · next e' outcomes hfailure hcollect =>
    obtain rfl := Except.error.inj h
    obtain ⟨-, hsome⟩ := Prod.mk.inj hcollect
    rcases Option.or_eq_some_iff.mp hsome with hslots | ⟨-, hleft⟩
    · exact .inr (.inl (Slot.exists_of_collect hslots))
    · refine .inr (.inr ⟨hfailure, fun hnil => ?_⟩)
      simp [hnil] at hleft
  · exact nomatch h

/-- Where there are outcomes, they are reported one after the other. -/
theorem closing_of_outcomes {outcomes : List Outcome} (h : p.outcomes = .ok outcomes) :
    p.closing = Outcome.reportEvents outcomes ++ [.completed outcomes.length] := by
  unfold Pool.outcomes at h
  unfold closing
  split at h
  · exact nomatch h
  · exact nomatch h
  · next outcomes' hfailure hcollect =>
    obtain rfl := Except.ok.inj h
    simp only [hfailure, hcollect, closingEvents]

end Pool

namespace FileTree

variable (setup : RunSetup σ) (options : RunOptions) (c : Config) (t : FileTree) (x : σ)

/-- The pool of a run whose targets are found. -/
theorem run_eq {targets : List Target} {cacheDir skipped : Path}
    (h : t.prepare setup.digest setup.homes (options.jobCount c) c =
      .ok (targets, cacheDir, skipped)) :
    t.run setup options c x =
      let p := finalPool setup (options.jobCount c) c skipped targets
        { tree := t, runner := x, store := options.storeFor c cacheDir, log := [] }
      { state := p.state.say p.closing
        store := options.store.map fun s => if s.isEmptyMemory then s else p.state.store
        outcomes := p.outcomes } := by
  unfold run
  rw [h]
  rfl

/-- No turn of a run marks progress. -/
theorem quiet_finalPool (jobCount : Int) (skipped : Path) (targets : List Target)
    (s : RunState σ) (hs : Event.Quiet s.log) :
    Event.Quiet (finalPool setup jobCount c skipped targets s).state.log := by
  obtain ⟨events, hlog, hquiet⟩ := RunState.Acts.log
    (Pool.acts_run (setup.terms jobCount c skipped) (setup.schedule targets.length)
      (Pool.fresh targets (s.say [.noted .run
        s!"running {targets.length} linter(s) with {jobCount} job(s)"])))
  unfold finalPool
  rw [hlog]
  unfold Event.Quiet at *
  rw [Event.milestones_append, hquiet, List.append_nil]
  exact (Event.milestones_append s.log _).trans (by rw [hs]; rfl)

/-- The progress of the report is that of the end of a run. -/
theorem milestones_run_eq {targets : List Target} {cacheDir skipped : Path}
    (h : t.prepare setup.digest setup.homes (options.jobCount c) c =
      .ok (targets, cacheDir, skipped)) :
    Event.milestones (t.run setup options c x).state.log =
      Event.milestones (finalPool setup (options.jobCount c) c skipped targets
        { tree := t, runner := x, store := options.storeFor c cacheDir, log := [] }).closing := by
  have hquiet := quiet_finalPool setup c (options.jobCount c) skipped targets
    { tree := t, runner := x, store := options.storeFor c cacheDir, log := [] } rfl
  rw [run_eq setup options c t x h]
  unfold Event.Quiet at hquiet
  simp only [RunState.say, Event.milestones_append, hquiet, List.nil_append]

/-- A run that has outcomes reports them one after the other. -/
theorem milestones_run {outcomes : List Outcome}
    (h : (t.run setup options c x).outcomes = .ok outcomes) :
    Event.milestones (t.run setup options c x).state.log =
      Outcome.reportEvents outcomes ++ [.completed outcomes.length] := by
  cases hprepare : t.prepare setup.digest setup.homes (options.jobCount c) c with
  | error e => simp [run, hprepare] at h
  | ok found =>
    obtain ⟨targets, cacheDir, skipped⟩ := found
    rw [run_eq setup options c t x hprepare] at h
    rw [milestones_run_eq setup options c t x hprepare, Pool.closing_of_outcomes h,
      Event.milestones_append, Event.milestones_reportEvents]
    rfl

/-- An outcome that was reported is that of a slot. -/
theorem exists_slot_of_finished {targets : List Target} {cacheDir skipped : Path} {o : Outcome}
    (h : t.prepare setup.digest setup.homes (options.jobCount c) c =
      .ok (targets, cacheDir, skipped)) (ho : .finished o ∈ (t.run setup options c x).state.log) :
    ∃ slot ∈ (finalPool setup (options.jobCount c) c skipped targets
      { tree := t, runner := x, store := options.storeFor c cacheDir, log := [] }).slots,
      slot.result = .ok o := by
  have hmem := Event.mem_milestones_of_finished.mpr ho
  rw [milestones_run_eq setup options c t x h] at hmem
  exact Pool.exists_slot_of_closing (Event.mem_milestones_of_finished.mp hmem)

/-- The outcomes of a run are all reported. -/
theorem finished_of_mem_outcomes {outcomes : List Outcome}
    (h : (t.run setup options c x).outcomes = .ok outcomes) {o : Outcome} (ho : o ∈ outcomes) :
    .finished o ∈ (t.run setup options c x).state.log := by
  rw [← Event.mem_milestones_of_finished, milestones_run setup options c t x h]
  exact List.mem_append_left _ (Outcome.mem_reportEvents.mpr ho)

end FileTree

end LinterSuite
