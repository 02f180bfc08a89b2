import LinterSuite.Proofs.Run.Traces

/-!
# Complete schedules

A job never falls back, and no turn brings back a target that was looked at. So a schedule that has
a turn for every target and, after it, three turns for its job brings everything to an end, provided
that the user does not interrupt a job.

## Main definitions

* `Turn.Completes`: schedules with enough turns for every target
* `Pool.Uninterrupted`: a pool in which the user interrupted no job
* `Pool.IsDone`: a pool in which nothing is left to be done

## Main results

* `Pool.uninterrupted_run`: without an interruption by the user, none is met
* `Pool.isDone_of_uninterrupted`: a complete schedule leaves no target and no job behind
* `completes_inOrder`: one job after the other is a complete schedule
-/

namespace LinterSuite

variable {σ : Type}

/-! ### Interruptions -/

/-- A runner that the user never interrupts. -/
def Runner.Uninterrupted (runner : Runner σ) : Prop :=
  ∀ call world, (runner call world).1.result ≠ .error .interrupted

/-- A job that the user did not interrupt. -/
def JobState.Uninterrupted : JobState → Prop
  | returned _ result => result ≠ .error .interrupted
  | ended result => result ≠ .error .interrupted
  | _ => True

/-- A slot whose job the user did not interrupt. -/
def Slot.Uninterrupted : Slot → Prop
  | idle _ => True
  | job _ progress => progress.Uninterrupted

/-- A job is interrupted only if its command was. -/
theorem Job.outcome_ne_interrupted {j : Job} {before after : Observation}
    {result : Except RunError RawOutput} (h : result ≠ .error .interrupted) :
    j.outcome before after result ≠ .error .interrupted := by
  have hnumeral : ∀ x : Except Text.NumeralTooLong Outcome,
      x.mapError RunFailure.numeral ≠ .error .interrupted := by
    intro x
    cases x <;> simp [Except.mapError]
  cases result with
  | ok raw => exact hnumeral _
  | error err =>
    cases err with
    | failed f => exact hnumeral _
    | interrupted => exact absurd rfl h
    | home | path | nullInArgument | unwaited => exact nofun

theorem Slot.interruption?_eq_none {slots : List Slot} (h : ∀ slot ∈ slots, slot.Uninterrupted) :
    interruption? slots = none := by
  induction slots with
  | nil => rfl
  | cons slot slots ih =>
    obtain ⟨hslot, hslots⟩ := List.forall_mem_cons.mp h
    rcases slot with o | ⟨j, _ | _ | _ | (e | o)⟩
    · exact ih hslots
    · rfl
    · rfl
    · rfl
    · cases e with
      | interrupted => exact absurd rfl hslot
      | _ => rfl
    · rw [interruption?, ih hslots, Option.map_none]

namespace Pool

variable {terms : Terms σ} {p p' : Pool σ}

/-- A pool in which the user interrupted no job. -/
def Uninterrupted (p : Pool σ) : Prop := ∀ slot ∈ p.slots, slot.Uninterrupted

theorem Uninterrupted.set (h : p.Uninterrupted) {place : Nat} {slot : Slot}
    (hslot : slot.Uninterrupted) : ∀ other ∈ p.slots.set place slot, other.Uninterrupted := by
  intro other hother
  rcases List.mem_or_eq_of_mem_set hother with hmem | rfl
  · exact h other hmem
  · exact hslot

theorem Moves.uninterrupted (hrunner : terms.runner.Uninterrupted) (h : Moves terms p p')
    (hp : p.Uninterrupted) : p'.Uninterrupted := by
  cases h with
  | rest | refuse => exact hp
  | @enter target _ events slot _ _ found =>
    intro other hother
    rcases List.mem_append.mp hother with hmem | hmem
    · exact hp other hmem
    · obtain rfl := List.mem_singleton.mp hmem
      -- A job that was just made has not begun.
      have hnew := (found_slotOf found).isNew
      cases other with
      | idle => trivial
      | job j progress =>
        obtain rfl : progress = .waiting := hnew
        trivial
  | observe => exact hp.set trivial
  | call => exact hp.set (hrunner _ _)
  | @settle _ _ _ _ _ _ here settles =>
    have hresult := hp _ (List.mem_of_getElem? here)
    refine hp.set ?_
    cases settles with
    | unread outcome => exact fun heq => Job.outcome_ne_interrupted hresult (heq ▸ outcome)
    | unrecorded => exact nofun
    | recorded => exact nofun

theorem uninterrupted_run (hrunner : terms.runner.Uninterrupted) (hp : p.Uninterrupted)
    (schedule : List Turn) : (p.run terms schedule).Uninterrupted :=
  run_induction hp (fun _ _ hmove hpool => hmove.uninterrupted hrunner hpool) schedule

theorem Uninterrupted.of_set {place : Nat} {slot slot' : Slot}
    (h : ∀ other ∈ p.slots.set place slot', other.Uninterrupted)
    (here : p.slots[place]? = some slot) (hslot : slot'.Uninterrupted → slot.Uninterrupted) :
    p.Uninterrupted := by
  intro other hother
  obtain ⟨i, hi⟩ := List.getElem?_of_mem hother
  -- The slot that was replaced is judged by the new one, and all others are there still.
  by_cases hplace : place = i
  · subst hplace
    obtain rfl := Option.some.inj (here.symm.trans hi)
    exact hslot (h slot' (List.mem_set (List.getElem?_eq_some_iff.mp here).1 slot'))
  · refine h other (List.mem_of_getElem? (i := i) ?_)
    rw [List.getElem?_set_ne hplace, hi]

/-- No move takes an interruption back. -/
theorem Moves.uninterrupted_of (h : Moves terms p p') (hp : p'.Uninterrupted) :
    p.Uninterrupted := by
  cases h with
  | rest | refuse => exact hp
  | enter => exact fun slot hslot => hp slot (List.mem_append_left _ hslot)
  | observe here => exact .of_set hp here fun _ => trivial
  | call here => exact .of_set hp here fun _ => trivial
  | settle here settles =>
    refine .of_set hp here fun hended hresult => ?_
    subst hresult
    -- A job whose command was interrupted ends so.
    cases settles with
    | unread outcome => exact hended outcome.symm
    | unrecorded outcome => exact nomatch outcome
    | recorded outcome => exact nomatch outcome

theorem uninterrupted_of_run {schedule : List Turn} (h : (p.run terms schedule).Uninterrupted) :
    p.Uninterrupted := by
  induction schedule generalizing p with
  | nil => exact h
  | cons t schedule ih => exact (moves_turn terms p t).uninterrupted_of (ih h)

/-- Without an interruption every job may begin. -/
theorem Uninterrupted.mayBegin (h : p.Uninterrupted) (workers place : Nat) :
    p.mayBegin workers place = true := by
  simp [Pool.mayBegin, Slot.interruption?_eq_none h]

end Pool

/-! ### Progress -/

/-- How many steps a job has taken. -/
def JobState.rank : JobState → Nat
  | waiting => 0
  | observed _ => 1
  | returned .. => 2
  | ended _ => 3

/-- How many steps the job in a slot has taken; where nothing is run, nothing is left to be done. -/
def Slot.rank : Slot → Nat
  | idle _ => stepsOfJob
  | job _ progress => progress.rank

theorem Slot.rank_le (slot : Slot) : slot.rank ≤ stepsOfJob := by
  rcases slot with o | ⟨j, _ | _ | _ | _⟩ <;> simp [rank, JobState.rank, stepsOfJob]

/-- A slot that has come to its end without an outcome is a job that ended so. -/
theorem Slot.eq_ended_of_rank {slot : Slot} (h : slot.rank = stepsOfJob) {e : RunFailure}
    (hresult : slot.result = .error e) : ∃ j, slot = .job j (.ended (.error e)) := by
  rcases slot with o | ⟨j, _ | _ | _ | ended⟩
  · exact nomatch hresult
  · exact nomatch h
  · exact nomatch h
  · exact nomatch h
  · obtain rfl : ended = .error e := hresult
    exact ⟨j, rfl⟩

theorem Job.rank_step (digest : Digest) (runner : Runner σ) (j : Job) (progress : JobState)
    (s : RunState σ) :
    (j.step digest runner progress s).1.rank = min stepsOfJob (progress.rank + 1) := by
  cases progress with
  | waiting | observed | ended => rfl
  | returned before result =>
    obtain ⟨ended, s', hsettle, -⟩ := j.settles_settle digest before result s
    rw [step, hsettle]
    rfl

namespace Pool

variable {terms : Terms σ} {p p' : Pool σ} {place : Nat}

/-- The slot at a place has come so far at least. -/
def Reached (p : Pool σ) (place rank : Nat) : Prop :=
  ∃ slot, p.slots[place]? = some slot ∧ rank ≤ slot.rank

theorem Reached.mono {rank rank' : Nat} (h : p.Reached place rank) (hle : rank' ≤ rank) :
    p.Reached place rank' := by
  obtain ⟨slot, hslot, hrank⟩ := h
  exact ⟨slot, hslot, Nat.le_trans hle hrank⟩

/-- A slot is replaced by one that has come further only. -/
theorem Reached.set {rank other : Nat} {slot slot' : Slot} (h : p.Reached place rank)
    (hslot : p.slots[other]? = some slot) (hle : slot.rank ≤ slot'.rank) :
    ∃ slot'', (p.slots.set other slot')[place]? = some slot'' ∧ rank ≤ slot''.rank := by
  obtain ⟨here, hhere, hrank⟩ := h
  by_cases hplace : other = place
  · subst hplace
    obtain rfl := Option.some.inj (hslot.symm.trans hhere)
    exact ⟨slot', List.getElem?_set_self (List.getElem?_eq_some_iff.mp hslot).1,
      Nat.le_trans hrank hle⟩
  · exact ⟨here, by rw [List.getElem?_set_ne hplace, hhere], hrank⟩

/-- No slot falls back. -/
theorem Moves.reached {rank : Nat} (h : Moves terms p p') (hp : p.Reached place rank) :
    p'.Reached place rank := by
  cases h with
  | rest | refuse => exact hp
  | enter =>
    obtain ⟨slot, hslot, hrank⟩ := hp
    refine ⟨slot, ?_, hrank⟩
    rw [List.getElem?_append_left (List.getElem?_eq_some_iff.mp hslot).1, hslot]
  | observe here => exact hp.set here (Nat.zero_le _)
  | call here => exact hp.set here (Nat.le_succ _)
  | settle here => exact hp.set here (Nat.le_succ _)

/-- A turn for a job is a step of it. -/
theorem Reached.work {rank : Nat} (hp : p.Reached place rank) (hcalm : p.Uninterrupted) :
    (p.turn terms (.work place)).Reached place (min stepsOfJob (rank + 1)) := by
  obtain ⟨slot, hslot, hrank⟩ := hp
  cases slot with
  | idle o =>
    refine ⟨.idle o, ?_, Nat.min_le_left ..⟩
    rw [turn, Pool.work]
    simp only [hslot]
  | job j progress =>
    -- Nothing keeps a waiting job from its first step.
    have hbegins : (progress.isWaiting && !p.mayBegin terms.workers place) = false := by
      rw [hcalm.mayBegin, Bool.not_true, Bool.and_false]
    refine ⟨.job j (j.step terms.digest terms.runner progress p.state).1, ?_, ?_⟩
    · rw [turn, Pool.work]
      simp only [hslot, hbegins, Bool.false_eq_true, if_false]
      exact List.getElem?_set_self (List.getElem?_eq_some_iff.mp hslot).1
    · rw [Slot.rank, Job.rank_step]
      have : rank ≤ progress.rank := hrank
      omega

/-- So many turns for a job are so many steps of it. -/
theorem Reached.run_count {rank : Nat} (hp : p.Reached place rank) {schedule : List Turn}
    (hcalm : (p.run terms schedule).Uninterrupted) :
    (p.run terms schedule).Reached place
      (min stepsOfJob (rank + schedule.count (.work place))) := by
  induction schedule generalizing p rank with
  | nil => exact hp.mono (Nat.min_le_right ..)
  | cons t schedule ih =>
    -- Turns for this job are steps of it, and no other turn sets it back.
    by_cases ht : t = .work place
    · subst ht
      refine (ih (hp.work (uninterrupted_of_run hcalm)) hcalm).mono ?_
      rw [List.count_cons_self]
      omega
    · rw [List.count_cons_of_ne ht]
      exact ih ((moves_turn terms p t).reached hp) hcalm

/-! ### Looking at targets -/

/-- What is wrong with a target stays wrong. -/
theorem Moves.failure (h : Moves terms p p') {e : RunFailure} (hp : p.failure = some e) :
    p'.failure = some e := by
  cases h with
  | rest | observe | call | settle => exact hp
  | refuse going | enter going => simp [going] at hp

theorem failure_run {e : RunFailure} (hp : p.failure = some e) (schedule : List Turn) :
    (p.run terms schedule).failure = some e :=
  run_induction (motive := fun p' => p'.failure = some e) hp (fun _ _ hmove h => hmove.failure h)
    schedule

/-- Once something is wrong with a target, no more targets are looked at. -/
theorem left_run_of_failure {e : RunFailure} (hp : p.failure = some e) (schedule : List Turn) :
    (p.run terms schedule).left = p.left := by
  refine (run_induction (motive := fun p' => p'.failure = some e ∧ p'.left = p.left) ⟨hp, rfl⟩
    ?_ schedule).2
  rintro p₁ p₂ hmove ⟨hfailure, hleft⟩
  refine ⟨hmove.failure hfailure, ?_⟩
  cases hmove with
  | rest | refuse | observe | call | settle => exact hleft
  | enter going => simp [going] at hfailure

theorem Moves.length_left (h : Moves terms p p') : p'.left.length ≤ p.left.length := by
  cases h with
  | rest | refuse | observe | call | settle => exact Nat.le_refl _
  | enter _ next =>
    rw [next]
    exact Nat.le_succ _

/-- A turn for a target takes one away, unless something is wrong with it. -/
theorem length_left_dispatch (terms : Terms σ) (p : Pool σ)
    (h : (p.turn terms .dispatch).failure = none) :
    (p.turn terms .dispatch).left.length ≤ p.left.length - 1 := by
  rw [turn] at h ⊢
  unfold dispatch at h ⊢
  split
  · next going next =>
    simp only [going, next] at h
    split at h
    · simp at h
    · next hslot => simp [hslot, next]
  · next hstop =>
    split at h
    · next going next => exact absurd next (hstop _ _ going)
    · cases hleft : p.left with
      | nil => exact Nat.zero_le _
      | cons target rest => exact absurd hleft (hstop _ _ h)

/-- So many turns for targets leave so many fewer of them, unless something is wrong with one. -/
theorem length_left_run (terms : Terms σ) (schedule : List Turn) (p : Pool σ) :
    (p.run terms schedule).failure ≠ none ∨
      (p.run terms schedule).left.length ≤ p.left.length - schedule.count .dispatch := by
  induction schedule generalizing p with
  | nil => exact .inr (Nat.le_refl _)
  | cons t schedule ih =>
    cases hfailure : (p.turn terms t).failure with
    | some e =>
      have hrun : (p.run terms (t :: schedule)).failure = some e := failure_run hfailure schedule
      exact .inl (by simp [hrun])
    | none =>
      -- Nothing is wrong so far, so a turn for a target takes one away.
      refine (ih (p.turn terms t)).imp id fun hle => Nat.le_trans hle ?_
      by_cases ht : t = .dispatch
      · subst ht
        have := length_left_dispatch terms p hfailure
        rw [List.count_cons_self]
        omega
      · have := (moves_turn terms p t).length_left
        rw [List.count_cons_of_ne ht]
        omega

/-- Every target has a slot or is left. -/
theorem Moves.length_slots (h : Moves terms p p') :
    p'.slots.length + p'.left.length = p.slots.length + p.left.length := by
  cases h with
  | rest | refuse => rfl
  | enter _ next =>
    rw [next]
    simp only [List.length_append, List.length_cons, List.length_nil]
    omega
  | observe | call | settle => simp only [List.length_set]

theorem length_slots_run (terms : Terms σ) (schedule : List Turn) (p : Pool σ) :
    (p.run terms schedule).slots.length + (p.run terms schedule).left.length =
      p.slots.length + p.left.length :=
  run_induction (motive := fun p' => p'.slots.length + p'.left.length =
    p.slots.length + p.left.length) rfl (fun _ _ hmove h => hmove.length_slots.trans h) schedule

end Pool

/-! ### Complete schedules -/

/-- A schedule with enough turns for so many targets: one for every target, and three for its job
after it. -/
def Turn.Completes (count : Nat) (schedule : List Turn) : Prop :=
  ∀ place < count, ∃ before after, schedule = before ++ after ∧
    place < before.count .dispatch ∧ stepsOfJob ≤ after.count (.work place)

/-- One job after the other is a complete schedule. -/
theorem completes_inOrder (count : Nat) : Turn.Completes count (inOrder count) := by
  intro place hplace
  refine ⟨_, _, rfl, ?_, ?_⟩
  · rwa [List.count_replicate_self]
  · have hmem : place ∈ List.range count := List.mem_range.mpr hplace
    have hsteps : List.Sublist (List.replicate stepsOfJob (Turn.work place))
        ((List.range count).flatMap fun place => List.replicate stepsOfJob (Turn.work place)) := by
      rw [List.flatMap_def]
      exact List.sublist_flatten_of_mem (List.mem_map_of_mem hmem)
    calc stepsOfJob = (List.replicate stepsOfJob (Turn.work place)).count (.work place) :=
          List.count_replicate_self.symm
      _ ≤ _ := hsteps.count_le _

namespace Pool

variable {terms : Terms σ}

/-- Nothing is left to be done: all targets were looked at, or something is wrong with one, and all
jobs have ended. -/
structure IsDone (p : Pool σ) : Prop where
  looked : p.failure = none → p.left = []
  ended : ∀ slot ∈ p.slots, slot.rank = stepsOfJob

theorem length_slots_run_fresh (terms : Terms σ) (schedule : List Turn) (targets : List Target)
    (s : RunState σ) : ((fresh targets s).run terms schedule).slots.length +
      ((fresh targets s).run terms schedule).left.length = targets.length := by
  rw [length_slots_run]
  simp [fresh]

/-- A complete schedule leaves no target behind, unless something is wrong with one. -/
theorem left_eq_nil_of_completes {targets : List Target} {s : RunState σ} {schedule : List Turn}
    (h : Turn.Completes targets.length schedule)
    (hfailure : ((fresh targets s).run terms schedule).failure = none) :
    ((fresh targets s).run terms schedule).left = [] := by
  have hcount := length_slots_run_fresh terms schedule targets s
  -- The last target was looked at, if there is one.
  cases hlength : targets.length with
  | zero => exact List.eq_nil_of_length_eq_zero (by omega)
  | succ count =>
    obtain ⟨before, after, rfl, hbefore, -⟩ := h count (by omega)
    have hleft := (length_left_run terms (before ++ after)
      (fresh targets s)).resolve_left (· hfailure)
    have hfresh : (fresh targets s).left.length = targets.length := rfl
    rw [List.count_append] at hleft
    exact List.eq_nil_of_length_eq_zero (by omega)

/-- A complete schedule leaves no target and no job behind, unless the user interrupts a job. -/
theorem isDone_of_uninterrupted {targets : List Target} {s : RunState σ} {schedule : List Turn}
    (h : Turn.Completes targets.length schedule)
    (hcalm : ((fresh targets s).run terms schedule).Uninterrupted) :
    ((fresh targets s).run terms schedule).IsDone := by
  have hcount := length_slots_run_fresh terms schedule targets s
  constructor
  · exact left_eq_nil_of_completes h
  · intro slot hslot
    obtain ⟨place, hplace⟩ := List.getElem?_of_mem hslot
    have hlast := (List.getElem?_eq_some_iff.mp hplace).1
    obtain ⟨before, after, rfl, hbefore, hafter⟩ := h place (by omega)
    rw [run_append] at hplace hlast hcount
    have hslots := length_slots_run terms before (fresh targets s)
    have hleft := length_left_run terms before (fresh targets s)
    rw [run_append] at hcalm
    generalize (fresh targets s).run terms before = p at *
    have hfresh : (fresh targets s).left.length = targets.length := rfl
    have hnone : (fresh targets s).slots.length = 0 := rfl
    -- The target of the slot was looked at before its job takes the steps that are counted.
    have hthere : place < p.slots.length := by
      cases hfailure : p.failure with
      | some e =>
        rw [left_run_of_failure hfailure] at hcount
        omega
      | none =>
        have hle := hleft.resolve_left (· hfailure)
        omega
    have hreached : p.Reached place 0 := ⟨_, List.getElem?_eq_getElem hthere, Nat.zero_le _⟩
    obtain ⟨slot', hslot', hrank⟩ := hreached.run_count hcalm
    obtain rfl := Option.some.inj (hplace.symm.trans hslot')
    have := slot.rank_le
    omega

/-- A complete schedule leaves no target and no job behind if the user never interrupts one. -/
theorem isDone_run (hrunner : terms.runner.Uninterrupted) {targets : List Target} {s : RunState σ}
    {schedule : List Turn} (h : Turn.Completes targets.length schedule) :
    ((fresh targets s).run terms schedule).IsDone :=
  isDone_of_uninterrupted h
    (uninterrupted_run hrunner (fun _ hmem => absurd hmem List.not_mem_nil) schedule)

end Pool

/-- A run whose schedule is complete leaves no target and no job behind. -/
theorem Pool.isDone_finalPool (setup : RunSetup σ) (hrunner : setup.runner.Uninterrupted)
    (hcomplete : ∀ count, Turn.Completes count (setup.schedule count)) (jobCount : Int) (c : Config)
    (skipped : Path) (targets : List Target) (s : RunState σ) :
    (FileTree.finalPool setup jobCount c skipped targets s).IsDone :=
  isDone_run hrunner (hcomplete _)

end LinterSuite
