import LinterSuite.Run.Slot

/-!
# Pools of jobs

A pool looks at its targets one after the other and gives each a slot. The jobs among the slots take
their steps meanwhile and afterwards, in the order of a schedule. Once the user has interrupted a
job, the jobs that were begun by then go on, and the others do not begin.

## Main definitions

* `Terms`: what all targets of a pool have in common
* `Turn`: the next target is looked at, or a job takes a step
* `Pool`: targets that are left, slots, and what they share
* `Pool.turn`, `Pool.run`: one turn, and the turns of a schedule
* `inOrder`: the schedule that looks at all targets first and then runs one job after the other

## Main results

* `Pool.run_append`: schedules are run piece by piece
-/

namespace LinterSuite

/-- A job that has not begun. -/
def JobState.isWaiting : JobState → Bool
  | waiting => true
  | _ => false

/-- What all targets of a pool have in common. -/
structure Terms (σ : Type) where
  digest : Digest
  runner : Runner σ
  /-- Directories that no selection enters. -/
  skipped : List Path
  globalExcludes : List String
  /-- How many jobs may be under way at once, if an interruption keeps others from beginning. -/
  workers : Nat

/-- What is next in a pool. -/
inductive Turn where
  /-- A target is looked at. -/
  | dispatch
  /-- The job in a slot takes a step. -/
  | work (place : Nat)
  deriving DecidableEq, Repr

/-- Targets that are left, slots of those that were looked at, and what they share. -/
structure Pool (σ : Type) where
  left : List Target
  slots : List Slot
  state : RunState σ
  /-- Why no more targets are looked at. -/
  failure : Option RunFailure

namespace Pool

variable {σ : Type}

/-- A pool of which no target was looked at. -/
def fresh (targets : List Target) (s : RunState σ) : Pool σ := ⟨targets, [], s, none⟩

/-- All targets were looked at, so outcomes are waited for. -/
def isCollecting (p : Pool σ) : Bool := p.failure.isNone && p.left.isEmpty

/-- The job at a place may begin: there was no interruption, or it takes the place of one of the
jobs that were under way by then. -/
def mayBegin (workers : Nat) (p : Pool σ) (place : Nat) : Bool :=
  match Slot.interruption? p.slots with
  | some k => !p.isCollecting || decide ((p.slots.take place).countP Slot.isJob ≤ k + workers)
  | none => true

/-- The pool after the next target was looked at. If something is wrong with it, the others are not
looked at. -/
def dispatch (terms : Terms σ) (p : Pool σ) : Pool σ :=
  match p.failure, p.left with
  | none, target :: rest =>
    let (events, slot) := p.state.tree.slot terms.digest p.state.store terms.skipped
      terms.globalExcludes target
    let state := p.state.say events
    match slot with
    | .error e => { p with state, failure := some e }
    | .ok slot => { p with left := rest, slots := p.slots ++ [slot], state }
  | _, _ => p

/-- The pool after the next step of the job at a place. -/
def work (terms : Terms σ) (p : Pool σ) (place : Nat) : Pool σ :=
  match p.slots[place]? with
  | some (.job j progress) =>
    if progress.isWaiting && !p.mayBegin terms.workers place then p
    else
      let (progress, state) := j.step terms.digest terms.runner progress p.state
      { p with slots := p.slots.set place (.job j progress), state }
  | _ => p

/-- The pool after a turn. -/
def turn (terms : Terms σ) (p : Pool σ) : Turn → Pool σ
  | .dispatch => p.dispatch terms
  | .work place => p.work terms place

/-- The pool after the turns of a schedule. -/
def run (terms : Terms σ) (schedule : List Turn) (p : Pool σ) : Pool σ :=
  schedule.foldl (turn terms) p

/-- The outcomes up to the first target that did not end well, and how that one ended. Targets that
were not looked at count as interrupted. -/
def collect (p : Pool σ) : List Outcome × Option RunFailure :=
  let (outcomes, failure) := Slot.collect p.slots
  (outcomes, failure.or (if p.left.isEmpty then none else some .interrupted))

theorem run_append (terms : Terms σ) (first second : List Turn) (p : Pool σ) :
    p.run terms (first ++ second) = (p.run terms first).run terms second :=
  List.foldl_append

end Pool

/-- How many steps a job takes from its beginning to its end. -/
def stepsOfJob : Nat := 3

/-- The schedule that looks at so many targets and then runs one job after the other. -/
def inOrder (count : Nat) : List Turn :=
  List.replicate count .dispatch ++
    (List.range count).flatMap fun place => List.replicate stepsOfJob (.work place)

end LinterSuite
