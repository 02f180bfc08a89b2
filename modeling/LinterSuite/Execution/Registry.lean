import LinterSuite.Execution.Failure

/-!
# The registry of live processes

A runner keeps the processes it has started in a registry, so that all of them can be told to end.
From then on no other process is started, and one that was just being started is told to end as soon
as it is registered. A process is released when it has ended, or at once if its time limit is one
that cannot be waited for.

## Main definitions

* `Registry`: the live processes, and whether new ones are refused
* `Registry.terminateAll`: tells all processes to end
* `Stage`, `Child`: how far the supervision of one process has come
* `TimeLimit`, `TimeLimit.isUnwaitable`: how long a process may take, if it can be waited for
* `Supervision`: any number of supervisors and of calls that tell all processes to end
* `Supervision.Step`: one step of one of them

## Main results

* `Registry.terminateAll_stopping`: new processes are refused from then on
* `Supervision.Step.stopping_mono`: refusal is for good
-/

namespace LinterSuite

/-- The live processes of a runner, by number. -/
structure Registry where
  active : List Nat
  /-- New processes are refused. -/
  stopping : Bool
  deriving DecidableEq, Repr

namespace Registry

/-- No process was started yet. -/
def empty : Registry := ⟨[], false⟩

/-- The registry with one process more. -/
def register (r : Registry) (process : Nat) : Registry := { r with active := process :: r.active }

/-- The registry without a process. -/
def release (r : Registry) (process : Nat) : Registry :=
  { r with active := r.active.filter (· != process) }

/-- The registry that refuses new processes. -/
def stop (r : Registry) : Registry := { r with stopping := true }

/-- The registry after all processes were told to end, and those of them that were still running. -/
def terminateAll (r : Registry) (isRunning : Nat → Bool) : Registry × List Nat :=
  (r.stop, r.active.filter isRunning)

@[simp] theorem terminateAll_stopping (r : Registry) (isRunning : Nat → Bool) :
    (r.terminateAll isRunning).1.stopping = true := rfl

end Registry

/-! ### Concurrent supervision -/

/-- How far the supervision of a process has come. -/
inductive Stage where
  | waiting
  /-- New processes were refused. -/
  | refused
  | admitted
  /-- The process could not be started. -/
  | unstartable
  | started
  | registered
  | released
  /-- The process was released without being waited for. -/
  | abandoned
  deriving DecidableEq, Repr

/-- A process under supervision. -/
structure Child where
  stage : Stage
  /-- It has ended. -/
  exited : Bool
  /-- It has been told to end. -/
  signalled : Bool
  deriving DecidableEq, Repr

namespace Child

/-- A process that nothing was done about yet. -/
def fresh : Child := ⟨.waiting, false, false⟩

/-- A process that is there and has not ended. -/
def isRunning (c : Child) : Bool :=
  (c.stage = .started || c.stage = .registered || c.stage = .released || c.stage = .abandoned) &&
    !c.exited

/-- The process told to end, unless it has ended. -/
def signal (c : Child) : Child := if c.exited then c else { c with signalled := true }

end Child

/-- The seconds that a process may take, if they are limited. -/
abbrev TimeLimit := Option Binary64

/-- No process with this limit can be waited for. -/
def TimeLimit.isUnwaitable (limit : TimeLimit) : Bool := (limit.bind Binary64.waitError?).isSome

/-- A call that tells all processes to end. -/
inductive Termination where
  | waiting
  /-- Those that are still to be told. -/
  | telling (rest : List Nat)
  | returned
  deriving DecidableEq, Repr

/-- A registry with any number of supervisors and of calls that tell all processes to end. -/
structure Supervision where
  registry : Registry
  children : Nat → Child
  terminations : Nat → Termination

namespace Supervision

/-- Nothing has happened yet. -/
def start : Supervision := ⟨.empty, fun _ => .fresh, fun _ => .waiting⟩

/-- The state with another child. -/
def setChild (s : Supervision) (i : Nat) (c : Child) : Supervision :=
  { s with children := fun j => if j = i then c else s.children j }

/-- The state with another call that tells all processes to end. -/
def setTermination (s : Supervision) (k : Nat) (x : Termination) : Supervision :=
  { s with terminations := fun j => if j = k then x else s.terminations j }

/-- One step of a supervisor, of a process, or of a call that tells all processes to end, where the
processes have the given limits. -/
inductive Step (limits : Nat → TimeLimit) : Supervision → Supervision → Prop where
  | accept (s : Supervision) (i : Nat) : (s.children i).stage = .waiting →
      s.registry.stopping = false →
      Step limits s (s.setChild i { s.children i with stage := .admitted })
  | refuse (s : Supervision) (i : Nat) : (s.children i).stage = .waiting →
      s.registry.stopping = true →
      Step limits s (s.setChild i { s.children i with stage := .refused })
  | launch (s : Supervision) (i : Nat) : (s.children i).stage = .admitted →
      Step limits s (s.setChild i { s.children i with stage := .started })
  | fail (s : Supervision) (i : Nat) : (s.children i).stage = .admitted →
      Step limits s (s.setChild i { s.children i with stage := .unstartable })
  | exit (s : Supervision) (i : Nat) : (s.children i).isRunning = true →
      Step limits s (s.setChild i { s.children i with exited := true })
  | register (s : Supervision) (i : Nat) : (s.children i).stage = .started →
      Step limits s (({ s with registry := s.registry.register i }).setChild i
        (let c := { s.children i with stage := .registered }
        if s.registry.stopping then c.signal else c))
  | timeout (s : Supervision) (i : Nat) : (s.children i).stage = .registered →
      (limits i).isSome → (limits i).isUnwaitable = false →
      Step limits s (s.setChild i (s.children i).signal)
  | release (s : Supervision) (i : Nat) : (s.children i).stage = .registered →
      (s.children i).exited = true → (limits i).isUnwaitable = false →
      Step limits s (({ s with registry := s.registry.release i }).setChild i
        { s.children i with stage := .released })
  | abandon (s : Supervision) (i : Nat) : (s.children i).stage = .registered →
      (limits i).isUnwaitable = true →
      Step limits s (({ s with registry := s.registry.release i }).setChild i
        { s.children i with stage := .abandoned })
  | stop (s : Supervision) (k : Nat) : s.terminations k = .waiting →
      Step limits s (({ s with registry := s.registry.stop }).setTermination k
        (.telling s.registry.active))
  | tell (s : Supervision) (k i : Nat) (rest : List Nat) :
      s.terminations k = .telling (i :: rest) →
      Step limits s ((s.setChild i (s.children i).signal).setTermination k (.telling rest))
  | finish (s : Supervision) (k : Nat) : s.terminations k = .telling [] →
      Step limits s (s.setTermination k .returned)

/-- The states that can be reached. -/
inductive Reachable (limits : Nat → TimeLimit) : Supervision → Prop where
  | start : Reachable limits start
  | step {s s' : Supervision} : Reachable limits s → Step limits s s' → Reachable limits s'

theorem Step.stopping_mono {limits : Nat → TimeLimit} {s s' : Supervision} (h : Step limits s s')
    (hs : s.registry.stopping = true) : s'.registry.stopping = true := by
  cases h with
  | stop => rfl
  | _ => exact hs

end Supervision

end LinterSuite
