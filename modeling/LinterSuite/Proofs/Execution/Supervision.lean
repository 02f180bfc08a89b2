import LinterSuite.Execution.Registry
import Mathlib.Logic.Relation

/-!
# No process outlives a call that tells all to end

Any number of supervisors start processes while any number of calls tell all processes to end. What
has to be seen is that a process cannot slip between the two: one that a call did not find among the
live processes was not registered yet, and is told to end when it is. Only one that was released
without being waited for runs on, because of a time limit that cannot be waited for.

## Main definitions

* `Supervision.Later`: what can follow a state
* `Child.IsSettled`: the process has ended or was told to
* `Termination.left?`: the processes that a call which has begun has still to tell
* `Supervision.Sound`: the invariant of the registry, the processes and the calls

## Main results

* `Supervision.Sound.step`, `Supervision.Reachable.sound`: every state that can be reached is sound
* `Supervision.Reachable.no_process_escapes`: once a call has returned, every process that runs was
  told to end or is about to be, or is one that nobody waits for
* `Supervision.exists_abandoned`, `Supervision.abandoned_process_escapes`: one that nobody waits for
  is not told
* `Supervision.later_terminateAll`: a call that nothing comes between does to the registry what
  `Registry.terminateAll` does
-/

namespace LinterSuite

/-! ### Processes and calls -/

namespace Child

/-- The process has ended or was told to. -/
def IsSettled (c : Child) : Prop := c.exited = true ∨ c.signalled = true

@[simp] theorem signal_stage (c : Child) : c.signal.stage = c.stage := by
  unfold signal
  split <;> rfl

@[simp] theorem signal_exited (c : Child) : c.signal.exited = c.exited := by
  unfold signal
  split <;> rfl

theorem signal_isSettled (c : Child) : c.signal.IsSettled := by
  unfold signal
  split
  next hexited => exact .inl hexited
  next => exact .inr rfl

@[simp] theorem signal_signal (c : Child) : c.signal.signal = c.signal := by
  unfold signal
  split <;> simp_all

theorem IsSettled.signal {c : Child} (_ : c.IsSettled) : c.signal.IsSettled := c.signal_isSettled

/-- A running process is one that was started, with its supervisor at one of four places. -/
theorem isRunning_iff {c : Child} :
    c.isRunning = true ↔
      (c.stage = .started ∨ c.stage = .registered ∨ c.stage = .released ∨ c.stage = .abandoned) ∧
        c.exited = false := by
  simp [isRunning, or_assoc]

/-- A running process that is settled was told to end. -/
theorem IsSettled.signalled {c : Child} (h : c.IsSettled) (hrunning : c.isRunning = true) :
    c.signalled = true := by
  refine h.resolve_left fun hexited => ?_
  rw [(isRunning_iff.mp hrunning).2] at hexited
  cases hexited

end Child

/-- The processes that a call which has begun has still to tell to end. -/
def Termination.left? : Termination → Option (List Nat)
  | .waiting => none
  | .telling rest => some rest
  | .returned => some []

namespace Stage

/-- The next stage of a supervisor, with processes refused or not. -/
inductive Next (stopping : Bool) : Stage → Stage → Prop where
  | accept : stopping = false → Next stopping .waiting .admitted
  | refuse : stopping = true → Next stopping .waiting .refused
  | launch : Next stopping .admitted .started
  | fail : Next stopping .admitted .unstartable
  | register : Next stopping .started .registered
  | release : Next stopping .registered .released
  | abandon : Next stopping .registered .abandoned

/-- The supervisor has started no process and is not about to: it has not asked yet whether it may,
or was refused. -/
def IsIdle (x : Stage) : Prop := x = .waiting ∨ x = .refused

/-- The supervisor has not begun, or has ended. -/
def IsOver : Stage → Prop
  | .waiting | .refused | .unstartable | .released | .abandoned => True
  | .admitted | .started | .registered => False

/-- While processes are refused, a supervisor that is idle stays so. -/
theorem IsIdle.reflGen {x y : Stage} {stopping : Bool} (h : x.IsIdle)
    (hnext : Relation.ReflGen (Next stopping) x y) (hstopping : stopping = true) : y.IsIdle := by
  cases hnext with
  | refl => exact h
  | single hnext =>
    cases hnext with
    | accept hno =>
      rw [hstopping] at hno
      cases hno
    | refuse => exact .inr rfl
    | _ => rcases h with h | h <;> cases h

/-- What comes after the start of a process is its registration. -/
theorem eq_started_or_registered {x : Stage} {stopping : Bool}
    (h : Relation.ReflGen (Next stopping) .started x) : x = .started ∨ x = .registered := by
  cases h with
  | refl => exact .inl rfl
  | single hnext =>
    cases hnext
    exact .inr rfl

end Stage

namespace Supervision

variable {limits : Nat → TimeLimit} {s s' s'' : Supervision} {i j k : Nat} {c : Child}
  {x : Termination}

/-- The second state can follow the first. -/
def Later (limits : Nat → TimeLimit) : Supervision → Supervision → Prop :=
  Relation.ReflTransGen (Step limits)

theorem Reachable.later (h : s.Reachable limits) (hlater : s.Later limits s') :
    s'.Reachable limits := by
  induction hlater with
  | refl => exact h
  | tail _ hstep ih => exact ih.step hstep

/-! ### Reading a changed state -/

@[simp] theorem setChild_registry : (s.setChild i c).registry = s.registry := rfl

@[simp] theorem setChild_terminations : (s.setChild i c).terminations = s.terminations := rfl

@[simp] theorem setTermination_registry : (s.setTermination k x).registry = s.registry := rfl

@[simp] theorem setTermination_children : (s.setTermination k x).children = s.children := rfl

@[simp] theorem setChild_children_self : (s.setChild i c).children i = c := by
  simp [setChild]

theorem setChild_children_of_ne (h : j ≠ i) : (s.setChild i c).children j = s.children j := by
  simp [setChild, h]

@[simp] theorem setTermination_terminations_self :
    (s.setTermination k x).terminations k = x := by
  simp [setTermination]

theorem setTermination_terminations_of_ne (h : j ≠ k) :
    (s.setTermination k x).terminations j = s.terminations j := by
  simp [setTermination, h]

/-! ### The invariant -/

/-- What is true between any two steps. -/
structure Sound (limits : Nat → TimeLimit) (s : Supervision) : Prop where
  nodup : s.registry.active.Nodup
  mem_active_iff (i : Nat) : i ∈ s.registry.active ↔ (s.children i).stage = .registered
  exited (i : Nat) : (s.children i).stage = .released → (s.children i).exited = true
  unwaitable (i : Nat) : (s.children i).stage = .abandoned → (limits i).isUnwaitable = true
  /-- Once a call has begun, new processes are refused. -/
  stopping (k : Nat) (rest : List Nat) : (s.terminations k).left? = some rest →
    s.registry.stopping = true
  /-- What a call that has begun has told or found ended, it need not tell again. -/
  settled (k : Nat) (rest : List Nat) : (s.terminations k).left? = some rest →
    ∀ i ∈ s.registry.active, i ∈ rest ∨ (s.children i).IsSettled

theorem sound_start : start.Sound limits where
  nodup := .nil
  mem_active_iff i := by simp [start, Registry.empty, Child.fresh]
  exited i h := by simp [start, Child.fresh] at h
  unwaitable i h := by simp [start, Child.fresh] at h
  stopping k rest h := by simp [start, Termination.left?] at h
  settled k rest h := by simp [start, Termination.left?] at h

/-- A change of one process is sound if the process neither enters nor leaves the registry, is not
released, and was not settled before or is so still. -/
theorem Sound.setChild (h : s.Sound limits)
    (hstage : c.stage = .registered ↔ (s.children i).stage = .registered)
    (hexited : c.stage = .released → c.exited = true)
    (hlimit : c.stage = .abandoned → (limits i).isUnwaitable = true)
    (hsettled : (s.children i).IsSettled → c.IsSettled) : (s.setChild i c).Sound limits where
  nodup := h.nodup
  mem_active_iff j := by
    by_cases hj : j = i
    · subst hj
      simpa [hstage] using h.mem_active_iff j
    · simpa [setChild_children_of_ne hj] using h.mem_active_iff j
  exited j := by
    by_cases hj : j = i
    · subst hj
      simpa using hexited
    · simpa [setChild_children_of_ne hj] using h.exited j
  unwaitable j := by
    by_cases hj : j = i
    · subst hj
      simpa using hlimit
    · simpa [setChild_children_of_ne hj] using h.unwaitable j
  stopping := h.stopping
  settled k rest hk j hj := by
    refine (h.settled k rest hk j hj).imp_right fun hbefore => ?_
    by_cases hji : j = i
    · subst hji
      simpa using hsettled hbefore
    · simpa [setChild_children_of_ne hji] using hbefore

/-- A step of a call is sound if nothing is left untold that the call does not know of. -/
theorem Sound.setTermination (h : s.Sound limits) (hstopping : s.registry.stopping = true)
    (hx : ∀ rest, x.left? = some rest →
      ∀ i ∈ s.registry.active, i ∈ rest ∨ (s.children i).IsSettled) :
    (s.setTermination k x).Sound limits where
  nodup := h.nodup
  mem_active_iff := h.mem_active_iff
  exited := h.exited
  unwaitable := h.unwaitable
  stopping _ _ _ := hstopping
  settled j rest hj := by
    by_cases hjk : j = k
    · subst hjk
      exact hx rest (by simpa using hj)
    · exact h.settled j rest (by simpa [setTermination_terminations_of_ne hjk] using hj)

/-- A process that is registered while processes are refused is told to end at once. This is what
closes the gap between its start and its registration. -/
theorem Sound.register (h : s.Sound limits) (hi : (s.children i).stage = .started) :
    (({ s with registry := s.registry.register i }).setChild i
      (let c := { s.children i with stage := .registered }
      if s.registry.stopping then c.signal else c)).Sound limits where
  nodup := by
    refine List.nodup_cons.mpr ⟨fun hmem => ?_, h.nodup⟩
    rw [h.mem_active_iff, hi] at hmem
    cases hmem
  mem_active_iff j := by
    by_cases hj : j = i
    · subst hj
      simp only [setChild_registry, Registry.register, List.mem_cons, true_or, true_iff,
        setChild_children_self]
      split <;> simp
    · simpa [setChild_children_of_ne hj, Registry.register, hj] using h.mem_active_iff j
  exited j := by
    by_cases hj : j = i
    · subst hj
      simp only [setChild_children_self]
      split <;> simp
    · simpa [setChild_children_of_ne hj] using h.exited j
  unwaitable j := by
    by_cases hj : j = i
    · subst hj
      simp only [setChild_children_self]
      split <;> simp
    · simpa [setChild_children_of_ne hj] using h.unwaitable j
  stopping := h.stopping
  settled k rest hk j hj := by
    have hstopping := h.stopping k rest hk
    by_cases hji : j = i
    · -- The new one is told at the same moment, since a call has begun.
      subst hji
      right
      simpa [hstopping] using Child.signal_isSettled _
    · have hmem : j ∈ s.registry.active := by simpa [Registry.register, hji] using hj
      simpa [setChild_children_of_ne hji] using h.settled k rest hk j hmem

/-- A process may be released when it has ended, or cannot be waited for. -/
theorem Sound.release {x : Stage} (h : s.Sound limits) (hx : x ≠ .registered)
    (hexited : x = .released → (s.children i).exited = true)
    (hlimit : x = .abandoned → (limits i).isUnwaitable = true) :
    (({ s with registry := s.registry.release i }).setChild i
      { s.children i with stage := x }).Sound limits where
  nodup := h.nodup.filter _
  mem_active_iff j := by
    by_cases hj : j = i
    · subst hj
      simp [Registry.release, hx]
    · simpa [setChild_children_of_ne hj, Registry.release, hj] using h.mem_active_iff j
  exited j := by
    by_cases hj : j = i
    · subst hj
      simpa using hexited
    · simpa [setChild_children_of_ne hj] using h.exited j
  unwaitable j := by
    by_cases hj : j = i
    · subst hj
      simpa using hlimit
    · simpa [setChild_children_of_ne hj] using h.unwaitable j
  stopping := h.stopping
  settled k rest hk j hj := by
    obtain ⟨hmem, hji⟩ : j ∈ s.registry.active ∧ j ≠ i := by simpa [Registry.release] using hj
    simpa [setChild_children_of_ne hji] using h.settled k rest hk j hmem

theorem Sound.stop (h : s.Sound limits) :
    ({ s with registry := s.registry.stop } : Supervision).Sound limits where
  nodup := h.nodup
  mem_active_iff := h.mem_active_iff
  exited := h.exited
  unwaitable := h.unwaitable
  stopping _ _ _ := rfl
  settled := h.settled

theorem Sound.step (h : s.Sound limits) (hstep : Step limits s s') : s'.Sound limits := by
  cases hstep with
  | accept i hi => exact h.setChild (by simp [hi]) (by simp) (by simp) id
  | refuse i hi => exact h.setChild (by simp [hi]) (by simp) (by simp) id
  | launch i hi => exact h.setChild (by simp [hi]) (by simp) (by simp) id
  | fail i hi => exact h.setChild (by simp [hi]) (by simp) (by simp) id
  | exit i => exact h.setChild .rfl (fun _ => rfl) (h.unwaitable i) fun _ => .inl rfl
  | register i hi => exact h.register hi
  | timeout i hi => exact h.setChild (by simp) (by simp [hi]) (by simp [hi]) Child.IsSettled.signal
  | release i _ hexited => exact h.release (by simp) (fun _ => hexited) (by simp)
  | abandon i _ hlimit => exact h.release (by simp) (by simp) fun _ => hlimit
  | stop k =>
    -- The call takes down all live processes at the moment it has new ones refused.
    refine h.stop.setTermination rfl fun rest hrest j hj => .inl ?_
    rwa [← Option.some.inj hrest]
  | tell k i rest hk =>
    have hleft : (s.terminations k).left? = some (i :: rest) := by rw [hk]; rfl
    have hsignal : (s.setChild i (s.children i).signal).Sound limits :=
      h.setChild (by simp) (by simpa using h.exited i) (by simpa using h.unwaitable i)
        Child.IsSettled.signal
    refine hsignal.setTermination (h.stopping k _ hleft) fun rest' hrest j hj => ?_
    obtain rfl : rest = rest' := Option.some.inj hrest
    by_cases hji : j = i
    · subst hji
      exact .inr (by simpa using Child.signal_isSettled _)
    · rw [setChild_children_of_ne hji]
      exact (h.settled k _ hleft j hj).imp_left fun hmem => List.mem_of_ne_of_mem hji hmem
  | finish k hk =>
    have hleft : (s.terminations k).left? = some [] := by rw [hk]; rfl
    refine h.setTermination (h.stopping k _ hleft) fun rest hrest => ?_
    obtain rfl : [] = rest := Option.some.inj hrest
    exact h.settled k [] hleft

theorem Reachable.sound (h : s.Reachable limits) : s.Sound limits := by
  induction h with
  | start => exact sound_start
  | step _ hstep ih => exact ih.step hstep

/-! ### What later steps keep -/

theorem Later.stopping (h : s.Later limits s') (hs : s.registry.stopping = true) :
    s'.registry.stopping = true := by
  induction h with
  | refl => exact hs
  | tail _ hstep ih => exact hstep.stopping_mono ih

theorem Step.returned (h : Step limits s s') (hk : s.terminations k = .returned) :
    s'.terminations k = .returned := by
  cases h with
  | stop j hj | tell j _ _ hj | finish j hj =>
    have hne : k ≠ j := by
      rintro rfl
      rw [hk] at hj
      cases hj
    rwa [setTermination_terminations_of_ne hne]
  | _ => exact hk

theorem Later.returned (h : s.Later limits s') (hk : s.terminations k = .returned) :
    s'.terminations k = .returned := by
  induction h with
  | refl => exact hk
  | tail _ hstep ih => exact hstep.returned ih

theorem reflGen_setChild {R : Stage → Stage → Prop}
    (h : Relation.ReflGen R (s.children j).stage c.stage) (i : Nat) :
    Relation.ReflGen R (s.children i).stage ((s.setChild j c).children i).stage := by
  by_cases hij : i = j
  · subst hij
    rwa [setChild_children_self]
  · rw [setChild_children_of_ne hij]

/-- A step takes a supervisor at most one stage on. -/
theorem Step.stage (h : Step limits s s') (i : Nat) :
    Relation.ReflGen (Stage.Next s.registry.stopping) (s.children i).stage
      (s'.children i).stage := by
  cases h with
  | accept j hj hs => exact reflGen_setChild (.single (by rw [hj]; exact .accept hs)) i
  | refuse j hj hs => exact reflGen_setChild (.single (by rw [hj]; exact .refuse hs)) i
  | launch j hj => exact reflGen_setChild (.single (by rw [hj]; exact .launch)) i
  | fail j hj => exact reflGen_setChild (.single (by rw [hj]; exact .fail)) i
  | register j hj =>
    refine reflGen_setChild (.single ?_) i
    rw [hj]
    split <;> simpa using .register
  | release j hj => exact reflGen_setChild (.single (by rw [hj]; exact .release)) i
  | abandon j hj => exact reflGen_setChild (.single (by rw [hj]; exact .abandon)) i
  | exit j => exact reflGen_setChild (c := { s.children j with exited := true }) .refl i
  | timeout j | tell _ j => exact reflGen_setChild (by rw [Child.signal_stage]) i
  | stop | finish => exact .refl

theorem Later.isIdle (h : s.Later limits s') (hs : s.registry.stopping = true)
    (hi : (s.children i).stage.IsIdle) : (s'.children i).stage.IsIdle := by
  induction h with
  | refl => exact hi
  | tail hlater hstep ih => exact ih.reflGen (hstep.stage i) (Later.stopping hlater hs)

theorem isSettled_setChild (hc : (s.children j).IsSettled → c.IsSettled)
    (hi : (s.children i).IsSettled) : ((s.setChild j c).children i).IsSettled := by
  by_cases hij : i = j
  · subst hij
    rw [setChild_children_self]
    exact hc hi
  · rwa [setChild_children_of_ne hij]

/-- What has ended or was told to stays so. -/
theorem Step.isSettled (h : Step limits s s') (hi : (s.children i).IsSettled) :
    (s'.children i).IsSettled := by
  cases h with
  | accept | refuse | launch | fail => exact isSettled_setChild id hi
  | release | abandon => exact isSettled_setChild (s := { s with registry := _ }) id hi
  | exit => exact isSettled_setChild (fun _ => .inl rfl) hi
  | register j =>
    refine isSettled_setChild (s := { s with registry := _ }) (fun hj => ?_) hi
    dsimp only
    split
    · exact Child.signal_isSettled _
    · exact hj
  | timeout | tell => exact isSettled_setChild Child.IsSettled.signal hi
  | stop | finish => exact hi

/-! ### No process escapes -/

/-- A registered process was settled by any call that has returned, since it is in the registry and
the call has nobody left to tell. -/
theorem Sound.isSettled_of_registered (h : s.Sound limits) (hk : s.terminations k = .returned)
    (hi : (s.children i).stage = .registered) : (s.children i).IsSettled := by
  have hactive := (h.mem_active_iff i).mpr hi
  have hleft : (s.terminations k).left? = some [] := by rw [hk]; rfl
  exact (h.settled k [] hleft i hactive).resolve_left List.not_mem_nil

/-- A process that was started when a call had returned is settled as soon as it is registered, and
stays so. -/
theorem Reachable.started_or_isSettled (h : s.Reachable limits) (hlater : s.Later limits s')
    (hk : s.terminations k = .returned) (hi : (s.children i).stage = .started) :
    (s'.children i).stage = .started ∨ (s'.children i).IsSettled := by
  induction hlater with
  | refl => exact .inl hi
  | tail hlater hstep ih =>
    rcases ih with hstarted | hsettled
    · have hlater' := hlater.tail hstep
      have hstage := hstep.stage i
      rw [hstarted] at hstage
      exact (Stage.eq_started_or_registered hstage).imp_right fun hregistered =>
        (h.later hlater').sound.isSettled_of_registered (Later.returned hlater' hk) hregistered
    · exact .inr (hstep.isSettled hsettled)

/-- Once a call has returned, a process that runs was told to end, or is about to be registered and
is told then, or was released without being waited for, as its time limit cannot be waited for. A
supervisor that first asks while processes are refused never starts one. The live processes are
those registered and not released, so that none is left when all supervisors have ended. -/
theorem Reachable.no_process_escapes (h : s.Reachable limits) :
    (∀ k i, s.terminations k = .returned → (s.children i).isRunning = true →
      (s.children i).signalled = true ∨
        ((s.children i).stage = .started ∧
          ∀ s', s.Later limits s' → (s'.children i).isRunning = true →
            (s'.children i).signalled = true ∨ (s'.children i).stage = .started) ∨
        ((s.children i).stage = .abandoned ∧ (limits i).isUnwaitable = true)) ∧
    (∀ i, s.registry.stopping = true → (s.children i).stage = .waiting →
      ∀ s', s.Later limits s' →
        (s'.children i).stage = .waiting ∨ (s'.children i).stage = .refused) ∧
    s.registry.active.Nodup ∧
    (∀ i, i ∈ s.registry.active ↔ (s.children i).stage = .registered) ∧
    ((∀ i, (s.children i).stage.IsOver) → s.registry.active = []) := by
  have hsound := h.sound
  refine ⟨fun k i hk hrunning => ?_, fun i hs hi s' hlater => hlater.isIdle hs (.inl hi),
    hsound.nodup, hsound.mem_active_iff, fun hover => ?_⟩
  · obtain ⟨hstarted | hregistered | hreleased | habandoned, hexited⟩ :=
      Child.isRunning_iff.mp hrunning
    · refine .inr (.inl ⟨hstarted, fun s' hlater hrunning' => ?_⟩)
      exact (h.started_or_isSettled hlater hk hstarted).symm.imp_left fun hsettled =>
        hsettled.signalled hrunning'
    · exact .inl ((hsound.isSettled_of_registered hk hregistered).signalled hrunning)
    · have hended := hsound.exited i hreleased
      rw [hexited] at hended
      cases hended
    · exact .inr (.inr ⟨habandoned, hsound.unwaitable i habandoned⟩)
  · refine List.eq_nil_iff_forall_not_mem.mpr fun i hi => ?_
    have hregistered := (hsound.mem_active_iff i).mp hi
    have := hover i
    rw [hregistered] at this
    exact this

/-- Of two processes that run, one was found among the live ones and told to end, and the other is
not registered yet. -/
theorem no_process_escapes_midway : ∃ s : Supervision, s.Reachable (fun _ => none) ∧
    s.terminations 0 = .returned ∧ (s.children 0).isRunning = true ∧
    (s.children 0).signalled = true ∧ (s.children 1).isRunning = true ∧
    (s.children 1).signalled = false ∧
    ∀ s', s.Later (fun _ => none) s' → (s'.children 1).isRunning = true →
      (s'.children 1).signalled = true ∨ (s'.children 1).stage = .started := by
  have h : start.Reachable fun _ => none := .start
  -- The first process is started and registered, and the second only started.
  replace h := h.step (.accept _ 0 rfl rfl)
  replace h := h.step (.launch _ 0 rfl)
  replace h := h.step (.register _ 0 rfl)
  replace h := h.step (.accept _ 1 rfl rfl)
  replace h := h.step (.launch _ 1 rfl)
  -- A call finds the first alone.
  replace h := h.step (.stop _ 0 rfl)
  replace h := h.step (.tell _ 0 0 [] rfl)
  replace h := h.step (.finish _ 0 rfl)
  obtain hsignalled | ⟨-, hlater⟩ | ⟨habandoned, -⟩ := h.no_process_escapes.1 0 1 rfl rfl
  · cases hsignalled
  · exact ⟨_, h, rfl, rfl, rfl, rfl, rfl, hlater⟩
  · cases habandoned

/-- Nobody waits for a process whose time limit cannot be waited for. So a call that tells all
processes to end may not find it: it runs on, although its supervisor has ended. -/
theorem exists_abandoned {limit : TimeLimit} (hlimit : limit.isUnwaitable = true) :
    ∃ s : Supervision, s.Reachable (fun _ => limit) ∧ s.terminations 0 = .returned ∧
      (∀ i, (s.children i).stage.IsOver) ∧ (s.children 0).isRunning = true ∧
      (s.children 0).signalled = false := by
  have h : start.Reachable fun _ => limit := .start
  replace h := h.step (.accept _ 0 rfl rfl)
  replace h := h.step (.launch _ 0 rfl)
  replace h := h.step (.register _ 0 rfl)
  replace h := h.step (.abandon _ 0 rfl hlimit)
  -- By now nobody is left to be told.
  replace h := h.step (.stop _ 0 rfl)
  replace h := h.step (.finish _ 0 rfl)
  refine ⟨_, h, rfl, fun i => ?_, rfl, rfl⟩
  cases i with
  | zero => trivial
  | succ i => trivial

/-- Such a limit is one that is no number. -/
theorem abandoned_process_escapes : ∃ s : Supervision,
    s.Reachable (fun _ => some .nan) ∧ s.terminations 0 = .returned ∧
      (∀ i, (s.children i).stage.IsOver) ∧ (s.children 0).isRunning = true ∧
      (s.children 0).signalled = false :=
  exists_abandoned rfl

/-! ### A call that nothing comes between -/

theorem later_tell {rest : List Nat} (hk : s.terminations k = .telling rest) :
    ∃ s', s.Later limits s' ∧ s'.terminations k = .returned ∧ s'.registry = s.registry ∧
      ∀ i, s'.children i = if i ∈ rest then (s.children i).signal else s.children i := by
  induction rest generalizing s with
  | nil => exact ⟨_, .single (.finish s k hk), by simp, rfl, fun i => by simp⟩
  | cons j rest ih =>
    obtain ⟨s', hlater, hreturned, hregistry, hchildren⟩ :=
      ih (s := (s.setChild j (s.children j).signal).setTermination k (.telling rest)) (by simp)
    refine ⟨s', .head (.tell s k j rest hk) hlater, hreturned, hregistry, fun i => ?_⟩
    rw [hchildren i, setTermination_children]
    by_cases hij : i = j
    · subst hij
      simp
    · simp [setChild_children_of_ne hij, hij]

/-- A call that nothing comes between leaves the registry of `Registry.terminateAll`, and tells
those to end that it lists. -/
theorem Reachable.later_terminateAll (h : s.Reachable limits)
    (hk : s.terminations k = .waiting) :
    ∃ s', s.Later limits s' ∧ s'.terminations k = .returned ∧
      s'.registry = (s.registry.terminateAll fun i => (s.children i).isRunning).1 ∧
      ∀ i, s'.children i =
        if i ∈ (s.registry.terminateAll fun i => (s.children i).isRunning).2 then
          { s.children i with signalled := true }
        else s.children i := by
  obtain ⟨s', hlater, hreturned, hregistry, hchildren⟩ := later_tell (k := k)
    (s := ({ s with registry := s.registry.stop }).setTermination k (.telling s.registry.active))
    (setTermination_terminations_self)
  refine ⟨s', .head (.stop s k hk) hlater, hreturned, hregistry, fun i => ?_⟩
  have hactive := h.sound.mem_active_iff i
  rw [hchildren i]
  by_cases hi : i ∈ s.registry.active
  · have hregistered := hactive.mp hi
    cases hexited : (s.children i).exited <;>
      simp [Registry.terminateAll, hi, Child.isRunning, hregistered, Child.signal, hexited]
  · simp [Registry.terminateAll, hi]

end Supervision

end LinterSuite
