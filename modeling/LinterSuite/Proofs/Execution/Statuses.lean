import LinterSuite.Proofs.Execution.Batches

/-!
# The status of a command

The statuses of the invocations of a command are folded into one. No failure is lost in this: the
command passes exactly if every invocation was made and ended with a status of zero.

## Main definitions

* `Ending.status?`: the status of a process that came to its own end
* `RunReport.IsClean`: a command of which every invocation passed

## Main results

* `foldStatus_eq_zero_iff`: statuses are folded into zero if all are zero
* `Machine.statuses_of_run`: the status of a command, read off its processes
* `Machine.passes_iff_isClean`: a command passes exactly if every invocation of it did
-/

namespace LinterSuite

/-! ### Folding -/

/-- The status of a process that came to its own end. -/
def Ending.status? : Ending → Option Int
  | exited status _ => some status
  | _ => none

theorem foldStatus_of_length_ne_one {statuses : List Int} (h : statuses.length ≠ 1) :
    foldStatus statuses = if ∀ status ∈ statuses, status = 0 then 0 else partialFailure := by
  rcases statuses with _ | ⟨status, _ | ⟨status', statuses⟩⟩
  · rfl
  · exact absurd rfl h
  · simp [foldStatus]

/-- Statuses are folded into zero exactly if all are zero. -/
theorem foldStatus_eq_zero_iff {statuses : List Int} :
    foldStatus statuses = 0 ↔ ∀ status ∈ statuses, status = 0 := by
  by_cases hlength : statuses.length = 1
  · obtain ⟨status, rfl⟩ := List.length_eq_one_iff.mp hlength
    simp
  · rw [foldStatus_of_length_ne_one hlength]
    split
    next hzero => simpa using hzero
    next hsome => simpa [partialFailure] using hsome

/-- At least one invocation of a command was planned, and every one was made and ended with a status
of zero. None was refused, could not be started, or ran out of time. -/
structure RunReport.IsClean (call : RunCall) (r : RunReport) : Prop where
  planned : r.planned ≠ []
  made : ∃ executable, r.spawned.map (·.1) = r.planned.map (call.invocation executable)
  zero : ∀ e ∈ r.spawned, e.2.status? = some 0

theorem RunCall.batches_ne_nil (call : RunCall) (env : Environment) (executable : String) :
    call.batches env executable ≠ [] := by
  have hcovers := call.covers_batches env executable
  intro hnil
  have hfiles : call.files = [] := by rw [← hcovers.inOrder, hnil, List.flatten_nil]
  rw [hcovers.withoutFiles hfiles] at hnil
  exact List.cons_ne_nil _ _ hnil

/-! ### Processes of a command -/

namespace Machine

variable {σ : Type} {m : Machine σ} {env : Environment} {call : RunCall} {s : σ}

/-- Invocations that end well add their statuses to the earlier ones. -/
theorem statuses_of_invokeAll {earlier results : List (Int × String)} {invs : List Invocation}
    (h : (m.invokeAll earlier invs s).2.1 = .ok results) :
    ∃ added, results = earlier ++ added ∧
      (m.invokeAll earlier invs s).1.map (·.2.status?) = added.map fun r => some r.1 := by
  induction invs generalizing earlier s with
  | nil => exact ⟨[], by simpa [invokeAll] using h.symm, rfl⟩
  | cons inv invs ih =>
    rcases m.invokeAll_cons earlier inv invs s with
      ⟨-, hall⟩ | ⟨ending, s', e, -, -, hall⟩ | ⟨status, output, s', -, hall⟩ <;> rw [hall] at h ⊢
    · cases h
    · cases h
    · obtain ⟨added, rfl, hadded⟩ := ih h
      refine ⟨(status, Text.ofUtf8Lossy output) :: added, by simp, ?_⟩
      rw [List.map_cons, List.map_cons, hadded]
      rfl

/-- If as many invocations were made as there are, and all came to their own end, then all ended
well. -/
theorem exists_of_invokeAll {earlier : List (Int × String)} {invs : List Invocation}
    (hmade : (m.invokeAll earlier invs s).1.length = invs.length)
    (hended : ∀ e ∈ (m.invokeAll earlier invs s).1, e.2.status?.isSome) :
    ∃ results, (m.invokeAll earlier invs s).2.1 = .ok results := by
  induction invs generalizing earlier s with
  | nil => exact ⟨earlier, rfl⟩
  | cons inv invs ih =>
    rcases m.invokeAll_cons earlier inv invs s with
        ⟨-, hall⟩ | ⟨ending, s', e, -, hsettle, hall⟩ | ⟨status, output, s', -, hall⟩ <;>
      rw [hall] at hmade hended ⊢
    · cases hmade
    · -- The process is among those that were made, so it came to its own end.
      have hstatus := hended _ List.mem_cons_self
      cases ending <;> simp [Ending.status?, settle] at hstatus hsettle
    · exact ih (Nat.succ.inj hmade) fun e he => hended e (List.mem_cons_of_mem _ he)

/-- Either nothing was planned, since the command cannot be invoked at all, or its invocations were
made one after the other. -/
theorem run_cases (m : Machine σ) (env : Environment) (call : RunCall) (s : σ) :
    (∃ e, (m.run env call s).1 = ⟨[], [], .error e⟩) ∨
      ∃ executable,
        let planned := call.batches env executable
        let made := m.invokeAll [] (planned.map (call.invocation executable)) s
        (m.run env call s).1 = ⟨planned, made.1, made.2.1.map fun rs =>
          { exitStatus := foldStatus (rs.map (·.1)), output := String.join (rs.map (·.2)) }⟩ := by
  unfold run
  dsimp only
  split
  · exact .inl ⟨_, rfl⟩
  · exact .inl ⟨_, rfl⟩
  · split
    · exact .inl ⟨_, rfl⟩
    · next executable _ => exact .inr ⟨executable, rfl⟩

/-- The status of a command that is run to its end is folded from the statuses of its processes,
and there is one for every invocation that was planned. -/
theorem statuses_of_run {raw : RawOutput} (h : (m.run env call s).1.result = .ok raw) :
    ∃ statuses : List Int,
      (m.run env call s).1.spawned.map (·.2.status?) = statuses.map some ∧
      (m.run env call s).1.planned.length = statuses.length ∧
      raw.exitStatus = foldStatus statuses := by
  rcases m.run_cases env call s with ⟨e, hrun⟩ | ⟨executable, hrun⟩
  · rw [hrun] at h
    exact nomatch h
  · rw [hrun] at h ⊢
    obtain ⟨results, hresults, rfl⟩ := Except.map_eq_ok_iff.mp h
    obtain ⟨added, hadded, hstatuses⟩ := statuses_of_invokeAll hresults
    obtain rfl : results = added := by simpa using hadded
    have hmade := congrArg List.length (spawned_of_invokeAll hresults)
    have hended := congrArg List.length hstatuses
    refine ⟨results.map (·.1), by rw [hstatuses, List.map_map]; rfl, ?_, rfl⟩
    simp only [List.length_map] at hmade hended ⊢
    omega

theorem isClean_of_run {raw : RawOutput} (h : (m.run env call s).1.result = .ok raw)
    (hzero : raw.exitStatus = 0) : (m.run env call s).1.IsClean call := by
  obtain ⟨statuses, hstatuses, -, hfold⟩ := statuses_of_run h
  have hall := foldStatus_eq_zero_iff.mp (hfold.symm.trans hzero)
  rcases m.run_cases env call s with ⟨e, hrun⟩ | ⟨executable, hrun⟩
  · rw [hrun] at h
    exact nomatch h
  · rw [hrun] at h hstatuses ⊢
    obtain ⟨results, hresults, -⟩ := Except.map_eq_ok_iff.mp h
    refine ⟨call.batches_ne_nil env executable, ⟨executable, spawned_of_invokeAll hresults⟩,
      fun e he => ?_⟩
    have hmem : e.2.status? ∈ statuses.map some := hstatuses ▸ List.mem_map.mpr ⟨e, he, rfl⟩
    obtain ⟨status, hstatus, heq⟩ := List.mem_map.mp hmem
    rw [← heq, hall status hstatus]

theorem exists_of_isClean (h : (m.run env call s).1.IsClean call) :
    ∃ raw, (m.run env call s).1.result = .ok raw := by
  obtain ⟨hplanned, ⟨executable', hmade⟩, hzero⟩ := h
  rcases m.run_cases env call s with ⟨e, hrun⟩ | ⟨executable, hrun⟩
  · rw [hrun] at hplanned
    exact absurd rfl hplanned
  · rw [hrun] at hmade hzero ⊢
    have hlength := congrArg List.length hmade
    rw [List.length_map, List.length_map] at hlength
    obtain ⟨results, hresults⟩ := exists_of_invokeAll (by rw [List.length_map]; exact hlength)
      fun e he => by rw [hzero e he]; rfl
    exact ⟨_, Except.map_eq_ok_iff.mpr ⟨results, hresults, rfl⟩⟩

/-- A command passes exactly if every invocation of it was made and passed. -/
theorem passes_iff_isClean (m : Machine σ) (env : Environment) (call : RunCall) (s : σ) :
    (∃ raw, (m.run env call s).1.result = .ok raw ∧ raw.success = true) ↔
      (m.run env call s).1.IsClean call := by
  have hsuccess : ∀ raw : RawOutput, raw.success = true ↔ raw.exitStatus = 0 :=
    fun raw => beq_iff_eq
  constructor
  · rintro ⟨raw, hraw, hpass⟩
    exact isClean_of_run hraw ((hsuccess raw).mp hpass)
  · intro hclean
    obtain ⟨raw, hraw⟩ := exists_of_isClean hclean
    refine ⟨raw, hraw, (hsuccess raw).mpr ?_⟩
    -- Every status that was folded is that of a process, and all of these are zero.
    obtain ⟨statuses, hstatuses, -, hfold⟩ := statuses_of_run hraw
    rw [hfold, foldStatus_eq_zero_iff]
    intro status hstatus
    have hmem : some status ∈ statuses.map some := List.mem_map.mpr ⟨status, hstatus, rfl⟩
    rw [← hstatuses] at hmem
    obtain ⟨e, he, heq⟩ := List.mem_map.mp hmem
    rw [hclean.zero e he] at heq
    exact (Option.some.inj heq).symm

end Machine

end LinterSuite
