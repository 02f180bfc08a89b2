import LinterSuite.Execution.Runner
import LinterSuite.Shell.Evaluation

/-!
# Running scripts as processes

A host runs the scripts of its file tree. Everything a script writes goes through one pipe, which is
open until the script and all it left in the background have ended.

## Main definitions

* `Host`: a file tree with a registry of processes
* `FileTree.programOf`, `FileTree.programAt`: the file that a process runs
* `FileTree.process`: running a process to its end, or to the end of its time
* `Host.machine`: a host as a machine
* `Host.doomedMachine`: a host that tells all processes to end as soon as one of them waits
* `FileTree.runOnce`, `hostRunner`: running a command on a host of its own

## Main results

* `Host.machine_tree`: the machine of a host has its tree
-/

namespace LinterSuite

/-- Nanoseconds of a finite number of seconds. -/
def Binary64.nanoseconds? : Binary64 → Option Int
  | .finite negative m e =>
    let (num, den) := magnitude m e
    some (if negative then 0 else (num * Nat.pow 10 9 / den : Nat))
  | _ => none

namespace FileTree

/-- The places where a name of a program may stand: the name itself if it is a path, or else in the
directories of a search path. -/
def programPlaces (env : Environment) (name : String) : List String :=
  if name.toList.contains '/' then [name]
  else (Text.pieces ':' env.searchPath.toList).map fun dir => inDirectory (String.ofList dir) name

/-- The content of the file at a path if it can be run, or why it cannot. -/
def programOf (t : FileTree) (p : Path) : Except Shell.StartFault (List UInt8) :=
  match t.stat p with
  | .error e => .error (.unreached e)
  | .ok (.file data) =>
    if !data.executable then .error .denied
    else match Shell.startFault? t data.content with
      | some fault => .error fault
      | none => .ok data.content
  | .ok _ => .error .denied

/-- The first file at one of some paths that can be run. If there is none, the first that is there
and cannot be run says why, or else what is missing at the last path. -/
def firstProgram (t : FileTree) : List Path → Except Shell.StartFault (List UInt8)
  | [] => .error (.unreached .noEntry)
  | [p] => t.programOf p
  | p :: rest =>
    match t.programOf p, t.firstProgram rest with
    | .ok content, _ => .ok content
    | .error _, .ok content => .ok content
    | .error fault, .error later => .error (if fault.isAbsence then later else fault)

/-- The content of the file that a process runs, or why it runs none. -/
def programAt (t : FileTree) (env : Environment) (name : String) :
    Except Shell.StartFault (List UInt8) :=
  t.firstProgram ((programPlaces env name).map Path.ofString)

/-- The tree with another current directory, if there is one. -/
def inside (t : FileTree) (dir : Path) : FileTree :=
  match t.locate true dir with
  | .ok cwd => { t with cwd }
  | .error _ => t

/-- The state of a script that is about to run. -/
def scriptState (t : FileTree) (inv : Invocation) (deadline : Option Int) : Shell.State :=
  { tree := t, bindings := [], name := inv.argv.headD "", arguments := inv.argv.tail, status := 0
    input := [], written := [], captured := [], occupied := t.clock, deadline }

/-- What became of a process after its script ran, with the output of the script. -/
def endingOf (r : Shell.Flow × Shell.State) : Ending :=
  let output := r.2.written.reverse.flatten
  let late := r.2.deadline.any fun d => d < r.2.occupied
  if late then .timedOut output
  else match r.1 with
    | .exit status => .exited status output
    | .killed signal => .exited (-(signal : Int)) output
    | _ => .timedOut output

/-- The most bytes of one argument of a process, with the byte that ends it. -/
def argumentLimit : Nat := Nat.pow 2 17

/-- An argument takes more bytes than any may. -/
def isOversized (argv : List String) : Bool :=
  argv.any fun a => decide (argumentLimit ≤ Text.utf8Size a)

/-- Runs a process to its end, or until a given time. -/
def processUntil (t : FileTree) (env : Environment) (deadline : Option Int) (inv : Invocation) :
    Ending × FileTree :=
  if inv.argv.any fun a => a.toList.contains '\x00' then (.nullInArgument, t)
  else
    let there := t.inside inv.workDir
    if isOversized inv.argv then
      (.unstartable ("[Errno 7] Argument list too long: " ++ Text.quoted (inv.argv.headD "")), t)
    else match there.programAt env (inv.argv.headD "") with
    | .error fault => (.unstartable (fault.message ++ ": " ++ Text.quoted (inv.argv.headD "")), t)
    | .ok content =>
      let r := Shell.runScript content (there.scriptState inv deadline)
      (endingOf r, { r.2.tree with cwd := t.cwd })

/-- Runs a process to its end, or to the end of its time. -/
def process (t : FileTree) (env : Environment) (inv : Invocation) : Ending × FileTree :=
  let deadline := (inv.timeout.bind Binary64.nanoseconds?).map (t.clock + ·)
  let (ending, after) := t.processUntil env deadline inv
  (ending.within inv.timeout, after)

end FileTree

/-- A file tree with a registry of processes. -/
structure Host where
  tree : FileTree
  registry : Registry
  /-- How many processes were told to end. -/
  signalled : Nat

namespace Host

/-- A host on which no process was started yet. -/
def fresh (t : FileTree) : Host := ⟨t, .empty, 0⟩

/-- The host after all its processes were told to end. None is registered between invocations. -/
def terminateAll (h : Host) (isRunning : Nat → Bool) : Host :=
  let (registry, told) := h.registry.terminateAll isRunning
  { h with registry, signalled := told.length }

/-- A host as a machine. -/
def machine (env : Environment) : Machine Host where
  tree := Host.tree
  isStopping h := h.registry.stopping
  spawn inv h :=
    let (ending, tree) := h.tree.process env inv
    (ending, { h with tree })

@[simp] theorem machine_tree (env : Environment) (h : Host) : (machine env).tree h = h.tree := rfl

/-- The signal that tells a process to end. -/
def terminationSignal : Nat := 15

/-- A host that tells all processes to end as soon as one of them waits. -/
def doomedMachine (env : Environment) : Machine Host where
  tree := Host.tree
  isStopping h := h.registry.stopping
  spawn inv h :=
    let (ending, tree) := h.tree.processUntil env (some h.tree.clock) inv
    let ending := ending.within inv.timeout
    let waits := match ending with
      | .timedOut _ => true
      | _ => false
    let told := (({ h with tree, registry := h.registry.register 0 }).terminateAll fun _ => waits)
    let told := { told with registry := told.registry.release 0 }
    match ending with
    | .timedOut output => (.exited (-(terminationSignal : Int)) output, told)
    | ending => (ending, told)

end Host

/-- The outcome of running a command on a host of its own, with the tree behind it. -/
def FileTree.runOnce (env : Environment) (call : RunCall) (t : FileTree) : RunReport × FileTree :=
  let (report, h) := (Host.machine env).run env call (.fresh t)
  (report, h.tree)

/-- Runs every command on a host of its own. -/
def hostRunner (env : Environment) : Runner Unit := fun call (t, u) =>
  let (report, t) := t.runOnce env call
  (report, t, u)

end LinterSuite
