import LinterSuite.Proofs.Fallible
import LinterSuite.Proofs.Run.Samples

/-!
# The invocations of a command

A command that is run to its end was invoked on all its files in their order, and no invocation
that could have been made smaller takes more space than there is.

## Main definitions

* `Environment.space`: what the arguments of a process and its variables take together
* `RunCall.Covers`: groups of files that a call may be cut into

## Main results

* `Arguments.flatten_batches`, `Arguments.totalCost_le_of_mem_batches`: batches hold all files in
  order, and fit unless they hold a single file
* `Machine.invokeAll_cons`: what becomes of the next of some invocations
* `Machine.spawned_of_invokeAll`: invocations that all end well were all made
* `Machine.run_covers`: a command that ends was invoked on groups that cover its files
-/

namespace LinterSuite

/-! ### Batches -/

namespace Arguments

variable {budget : Int} {held files batch : List String} {size : Nat}

theorem totalCost_eq_sum (arguments : List String) :
    totalCost arguments = (arguments.map fun a => Text.utf8Size a + 9).sum := by
  induction arguments with
  | nil => rfl
  | cons a arguments ih => rw [List.map_cons, List.sum_cons, ← ih]; rfl

@[simp] theorem totalCost_cons (a : String) (arguments : List String) :
    totalCost (a :: arguments) = cost a + totalCost arguments := rfl

@[simp] theorem totalCost_append (arguments others : List String) :
    totalCost (arguments ++ others) = totalCost arguments + totalCost others := by
  simp [totalCost_eq_sum]

@[simp] theorem totalCost_reverse (arguments : List String) :
    totalCost arguments.reverse = totalCost arguments := by
  simp [totalCost_eq_sum, List.sum_reverse]

theorem flatten_batchesFrom (budget : Int) (held : List String) (size : Nat)
    (files : List String) :
    (batchesFrom budget held size files).flatten = held.reverse ++ files := by
  fun_induction batchesFrom budget held size files with
  | case1 held size hheld => simp [List.isEmpty_iff.mp hheld]
  | case2 held size hheld => simp
  | case3 held size file files hcut ih => simp [ih]
  | case4 held size file files hroom ih => simp [ih]

theorem ne_nil_of_mem_batchesFrom (h : batch ∈ batchesFrom budget held size files) :
    batch ≠ [] := by
  fun_induction batchesFrom budget held size files with
  | case1 => simp at h
  | case2 held size hheld =>
    rw [List.mem_singleton.mp h]
    simpa using hheld
  | case3 held size file files hcut ih =>
    rcases List.mem_cons.mp h with rfl | h
    · simpa using hcut.1
    · exact ih h
  | case4 held size file files hroom ih => exact ih h

/-- What is held fits or is a single file, and stays so: a file is added to others only if it fits
behind them. -/
theorem totalCost_le_of_mem_batchesFrom (hsize : size = totalCost held)
    (hfits : 2 ≤ held.length → (size : Int) ≤ budget)
    (h : batch ∈ batchesFrom budget held size files) (hlength : 2 ≤ batch.length) :
    (totalCost batch : Int) ≤ budget := by
  fun_induction batchesFrom budget held size files with
  | case1 => simp at h
  | case2 held size hheld =>
    rw [List.mem_singleton.mp h] at hlength ⊢
    rw [totalCost_reverse, ← hsize]
    exact hfits (by simpa using hlength)
  | case3 held size file files hcut ih =>
    rcases List.mem_cons.mp h with rfl | h
    · rw [totalCost_reverse, ← hsize]
      exact hfits (by simpa using hlength)
    · exact ih rfl (by simp) h
  | case4 held size file files hroom ih =>
    -- There was no cut, so either nothing was held or there was room.
    refine ih (by rw [hsize, totalCost_cons, Nat.add_comm]) (fun hheld => ?_) h
    have hnonempty : held ≠ [] := by
      rintro rfl
      simp at hheld
    simpa [hnonempty] using hroom

theorem flatten_batches (budget : Int) (files : List String) :
    (batches budget files).flatten = files := flatten_batchesFrom budget [] 0 files

theorem ne_nil_of_mem_batches (h : batch ∈ batches budget files) : batch ≠ [] :=
  ne_nil_of_mem_batchesFrom h

theorem totalCost_le_of_mem_batches (h : batch ∈ batches budget files)
    (hlength : 2 ≤ batch.length) : (totalCost batch : Int) ≤ budget :=
  totalCost_le_of_mem_batchesFrom rfl (by simp) h hlength

end Arguments

/-! ### Groups of files -/

/-- What the arguments of a process and the variables of its environment take together: the bytes
of each, one that ends it, and eight for the pointer to it. -/
def Environment.space (env : Environment) (argv : List String) : Nat :=
  ((argv ++ env.bindings.map fun v => v.1 ++ "=" ++ v.2).map fun a => Text.utf8Size a + 9).sum

/-- Groups of files that a call may be cut into: they hold its files in order, and each once. Only
without files is there an empty group, and it is the only one. Files that are wanted one by one are
alone, and others are together only as far as there is space. -/
structure RunCall.Covers (call : RunCall) (env : Environment) (executable : String)
    (groups : List (List String)) : Prop where
  inOrder : groups.flatten = call.files
  withoutFiles : call.files = [] → groups = [[]]
  nonempty : call.files ≠ [] → ∀ group ∈ groups, group ≠ []
  alone : call.singleFile = true → call.files ≠ [] → ∀ group ∈ groups, group.length = 1
  fits : call.singleFile = false → ∀ group ∈ groups, 2 ≤ group.length →
    (env.space (executable :: call.options ++ group) : Int) ≤ env.argumentLimit - 2048

theorem Environment.space_eq (env : Environment) (fixed group : List String) :
    (env.space (fixed ++ group) : Int) =
      env.argumentLimit - 2048 - Arguments.budget env.argumentLimit fixed env.bindings +
        Arguments.totalCost group := by
  -- The environment is counted with what is fixed, and files are counted one by one.
  have hspace : env.space (fixed ++ group) =
      Arguments.totalCost (fixed ++ group) + Arguments.environmentCost env.bindings := by
    rw [Arguments.environmentCost, ← Arguments.totalCost_append, Arguments.totalCost_eq_sum]
    rfl
  rw [hspace, Arguments.totalCost_append, Arguments.budget, Arguments.headroom]
  omega

theorem RunCall.covers_batches (call : RunCall) (env : Environment) (executable : String) :
    call.Covers env executable (call.batches env executable) := by
  unfold batches
  by_cases hfiles : call.files = []
  · rw [if_pos (by simpa using hfiles)]
    exact ⟨by simp [hfiles], fun _ => rfl, fun h => absurd hfiles h, fun _ h => absurd hfiles h,
      by simp⟩
  · rw [if_neg (by simpa using hfiles)]
    by_cases hsingle : call.singleFile = true
    · rw [if_pos hsingle]
      exact ⟨by simp [← List.flatMap_def], fun h => absurd h hfiles, by simp, by simp,
        by simp [hsingle]⟩
    · rw [if_neg hsingle]
      refine ⟨Arguments.flatten_batches _ _, fun h => absurd h hfiles,
        fun _ _ => Arguments.ne_nil_of_mem_batches, fun h => absurd h hsingle,
        fun _ group hgroup hlength => ?_⟩
      have hfits := Arguments.totalCost_le_of_mem_batches hgroup hlength
      rw [Environment.space_eq]
      omega

/-! ### Invocations -/

namespace Machine

variable {σ : Type} {m : Machine σ} {env : Environment} {call : RunCall} {s : σ}

/-- What becomes of the next of some invocations. It is refused; or its ending is an error, and it
is the last; or it comes to its own end, and the others follow. -/
theorem invokeAll_cons (m : Machine σ) (earlier : List (Int × String)) (inv : Invocation)
    (invs : List Invocation) (s : σ) :
    (m.isStopping s = true ∧ m.invokeAll earlier (inv :: invs) s =
      ([], .error (.because "Runner is shutting down" inv.argv), s)) ∨
    (∃ ending s' e, m.spawn inv s = (ending, s') ∧
      settle inv (String.join (earlier.map (·.2))) ending = .error e ∧
      m.invokeAll earlier (inv :: invs) s = ([(inv, ending)], .error e, s')) ∨
    ∃ status output s', m.spawn inv s = (.exited status output, s') ∧
      let rest := m.invokeAll (earlier ++ [(status, Text.ofUtf8Lossy output)]) invs s'
      m.invokeAll earlier (inv :: invs) s = ((inv, .exited status output) :: rest.1, rest.2) := by
  rw [invokeAll]
  by_cases hstop : m.isStopping s
  · exact .inl ⟨hstop, if_pos hstop⟩
  · rw [if_neg hstop]
    right
    obtain ⟨ending, s', hspawn⟩ : ∃ ending s', m.spawn inv s = (ending, s') := ⟨_, _, rfl⟩
    simp only [hspawn]
    -- Only an exit lets the others follow.
    cases ending with
    | exited status output => exact .inr ⟨status, output, s', rfl, rfl⟩
    | timedOut | unstartable | nullInArgument | unwaited => exact .inl ⟨_, s', _, rfl, rfl, rfl⟩

/-- Invocations that all end well were all made, in their order. -/
theorem spawned_of_invokeAll {earlier results : List (Int × String)} {invs : List Invocation}
    (h : (m.invokeAll earlier invs s).2.1 = .ok results) :
    (m.invokeAll earlier invs s).1.map (·.1) = invs := by
  induction invs generalizing earlier s with
  | nil => rfl
  | cons inv invs ih =>
    rcases m.invokeAll_cons earlier inv invs s with
      ⟨-, hall⟩ | ⟨ending, s', e, -, -, hall⟩ | ⟨status, output, s', -, hall⟩ <;> rw [hall] at h ⊢
    · cases h
    · cases h
    · rw [List.map_cons, ih h]

/-- The processes of a command that is run to its end are those of the groups that were planned. -/
theorem spawned_of_run {raw : RawOutput} (h : (m.run env call s).1.result = .ok raw) :
    ∃ executable, (m.tree s).executable env call.command call.workDir = .ok executable ∧
      (m.run env call s).1.spawned.map (·.1) =
        (call.batches env executable).map (call.invocation executable) := by
  unfold run at h ⊢
  dsimp only at h ⊢
  split at h
  · exact nomatch h
  · exact nomatch h
  · split at h
    · exact nomatch h
    · next executable hexecutable =>
      dsimp only at h ⊢
      obtain ⟨results, hresults, -⟩ := Except.map_eq_ok_iff.mp h
      exact ⟨executable, hexecutable, spawned_of_invokeAll hresults⟩

/-- The processes that a command was run as are its executable with its options and groups of
files, all in its working directory, and the groups cover its files. -/
theorem run_covers (m : Machine σ) (env : Environment) (call : RunCall) (s : σ) (raw : RawOutput)
    (h : (m.run env call s).1.result = .ok raw) :
    ∃ executable groups,
      (m.tree s).executable env call.command call.workDir = .ok executable ∧
      (m.run env call s).1.spawned.map (·.1) = groups.map (fun group =>
        { argv := executable :: call.options ++ group
          workDir := call.workDir, timeout := call.timeout }) ∧
      call.Covers env executable groups := by
  obtain ⟨executable, hexecutable, hspawned⟩ := spawned_of_run h
  exact ⟨executable, call.batches env executable, hexecutable, hspawned,
    call.covers_batches env executable⟩

/-- Room for two of three short files behind the executable. -/
theorem run_covers_two_batches :
    let env := { Sample.environment with argumentLimit := 2079 }
    let call : RunCall := { command := "./x", options := [], workDir := ⟨.root, []⟩
                            files := ["a", "b", "c"], timeout := none, singleFile := false }
    (Sample.machine.run env call (Sample.tree, ())).1.spawned.map (·.1.argv) =
        [["/x", "a", "b"], ["/x", "c"]] ∧
      ∃ executable groups,
        (Sample.machine.run env call (Sample.tree, ())).1.spawned.map (·.1) =
          groups.map (fun group => ⟨executable :: call.options ++ group, call.workDir, none⟩) ∧
        call.Covers env executable groups := by
  intro env call
  obtain ⟨executable, groups, -, hspawned, hcovers⟩ :=
    run_covers Sample.machine env call (Sample.tree, ()) ⟨0, ""⟩ (by cbv)
  exact ⟨by cbv, executable, groups, hspawned, hcovers⟩

end Machine

end LinterSuite
