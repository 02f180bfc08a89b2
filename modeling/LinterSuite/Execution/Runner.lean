import LinterSuite.Execution.Arguments
import LinterSuite.Execution.Executable
import LinterSuite.Execution.Registry
import LinterSuite.Text.Lines
import LinterSuite.Text.ShellWord

/-!
# Running a command

A command is invoked in its working directory once, or several times if its files do not fit on one
command line or are wanted one by one. The outputs are joined, and the statuses of several
invocations are folded into one.

## Main definitions

* `RunCall`: a command with all that it is to be run with
* `Machine`: what starts processes, over an arbitrary state of the world
* `RunCall.batches`: the files of each invocation
* `Machine.run`: running a command
* `Runner`: whatever runs commands in a file tree
* `foldStatus`: the status of several invocations

## Main results

* `foldStatus_singleton`: a single status stays as it is
* `Machine.invokeAll_of_isStopping`: a machine that is stopping starts nothing
-/

namespace LinterSuite

/-- A command with all that it is to be run with. -/
structure RunCall where
  command : String
  options : List String
  workDir : Path
  files : List String
  /-- Seconds allowed for each invocation. -/
  timeout : Option Binary64
  /-- Invoke once for each file. -/
  singleFile : Bool
  deriving DecidableEq, Repr

/-- What a command wrote, and its status. -/
structure RawOutput where
  exitStatus : Int
  output : String
  deriving DecidableEq, Repr

/-- The lines of the output. -/
def RawOutput.lines (r : RawOutput) : List String := Text.lines r.output

/-- A status of zero. -/
def RawOutput.success (r : RawOutput) : Bool := r.exitStatus == 0

/-- One process to start. -/
structure Invocation where
  /-- The executable and its arguments. -/
  argv : List String
  workDir : Path
  timeout : Option Binary64
  deriving DecidableEq, Repr

/-- What became of a process to start. -/
inductive Ending where
  /-- It ended; a status below zero is the signal that ended it. -/
  | exited (status : Int) (output : List UInt8)
  /-- It was ended because its time was over. -/
  | timedOut (output : List UInt8)
  /-- It could not be started. -/
  | unstartable (reason : String)
  /-- An argument has a null character in it. -/
  | nullInArgument
  /-- It was started and left to itself, since it cannot be waited for as long as it may take. -/
  | unwaited (error : WaitError)
  deriving DecidableEq, Repr

/-- What became of a process with a time limit. If it cannot be waited for that long, nobody waits
for it at all. -/
def Ending.within (limit : Option Binary64) (ending : Ending) : Ending :=
  match limit.bind Binary64.waitError?, ending with
  | some e, .exited .. | some e, .timedOut _ => .unwaited e
  | _, ending => ending

/-- What starts processes. -/
structure Machine (σ : Type) where
  tree : σ → FileTree
  /-- New processes are refused. -/
  isStopping : σ → Bool
  spawn : Invocation → σ → Ending × σ

/-- The status of a command whose invocations failed in part. -/
def partialFailure : Int := 123

/-- The status of several invocations. -/
def foldStatus : List Int → Int
  | [status] => status
  | statuses => if statuses.all (· == 0) then 0 else partialFailure

@[simp] theorem foldStatus_singleton (status : Int) : foldStatus [status] = status := rfl

namespace RunCall

/-- The files of each invocation behind the fixed arguments. -/
def batches (call : RunCall) (env : Environment) (executable : String) : List (List String) :=
  if call.files.isEmpty then [[]]
  else if call.singleFile then call.files.map ([·])
  else Arguments.batches
    (Arguments.budget env.argumentLimit (executable :: call.options) env.bindings) call.files

/-- The invocation with some of the files. -/
def invocation (call : RunCall) (executable : String) (files : List String) : Invocation :=
  { argv := executable :: call.options ++ files, workDir := call.workDir, timeout := call.timeout }

end RunCall

/-- What running a command came to. -/
structure RunReport where
  /-- The files of each invocation that was planned. -/
  planned : List (List String)
  /-- The processes that were to be started, and what became of them. -/
  spawned : List (Invocation × Ending)
  result : Except RunError RawOutput

/-- Runs a command in a file tree, with a state of its own. -/
abbrev Runner (σ : Type) := RunCall → FileTree × σ → RunReport × (FileTree × σ)

namespace Machine

variable {σ : Type}

/-- Seconds of a timeout; none allowed is none. -/
def secondsOf (timeout : Option Binary64) : Binary64 := timeout.getD (.zero false)

/-- What an ending means for the whole command, whose earlier invocations wrote `earlier`. -/
def settle (inv : Invocation) (earlier : String) : Ending → Except RunError (Int × String)
  | .exited status output => .ok (status, Text.ofUtf8Lossy output)
  | .timedOut output =>
    .error (.failed ⟨.timeout (secondsOf inv.timeout), inv.argv,
      earlier ++ Text.ofUtf8Lossy output⟩)
  | .unstartable reason =>
    .error (.because ("Cannot spawn '" ++ inv.argv.headD "" ++ "': " ++ reason) inv.argv)
  | .nullInArgument => .error .nullInArgument
  | .unwaited e => .error (.unwaited e)

/-- Runs some invocations one after the other up to the first that fails, behind earlier ones with
their statuses and outputs. -/
def invokeAll (m : Machine σ) (earlier : List (Int × String)) :
    List Invocation → σ → List (Invocation × Ending) × Except RunError (List (Int × String)) × σ
  | [], s => ([], .ok earlier, s)
  | inv :: rest, s =>
    if m.isStopping s then ([], .error (.because "Runner is shutting down" inv.argv), s)
    else
      let (ending, s) := m.spawn inv s
      match settle inv (String.join (earlier.map (·.2))) ending with
      | .error e => ([(inv, ending)], .error e, s)
      | .ok r =>
        let (spawned, result, s) := invokeAll m (earlier ++ [r]) rest s
        ((inv, ending) :: spawned, result, s)

/-- Runs a command. -/
def run (m : Machine σ) (env : Environment) (call : RunCall) (s : σ) : RunReport × σ :=
  let t := m.tree s
  match t.ask FileTree.isDir call.workDir with
  | .error e => (⟨[], [], .error (.path e)⟩, s)
  | .ok false =>
    (⟨[], [], .error (.because s!"{call.workDir} is not a directory" [call.command])⟩, s)
  | .ok true =>
    match t.executable env call.command call.workDir with
    | .error e => (⟨[], [], .error e⟩, s)
    | .ok executable =>
      let planned := call.batches env executable
      let (spawned, results, s) := m.invokeAll [] (planned.map (call.invocation executable)) s
      (⟨planned, spawned, results.map fun rs =>
        { exitStatus := foldStatus (rs.map (·.1)), output := String.join (rs.map (·.2)) }⟩, s)

/-- A machine that works on a file tree as a runner. -/
def runner (m : Machine (FileTree × σ)) (env : Environment) : Runner σ := m.run env

theorem invokeAll_of_isStopping {m : Machine σ} {s : σ} (h : m.isStopping s = true)
    (earlier : List (Int × String)) (invs : List Invocation) :
    (m.invokeAll earlier invs s).1 = [] := by
  cases invs <;> simp [invokeAll, h]

end Machine

namespace RunReport

/-- The notes on one process: the command line, and the status it ended with. -/
def spawnNotes (inv : Invocation) : Ending → List String
  | .exited status _ =>
    [s!"command: {Text.shellLine inv.argv} (cwd={inv.workDir})",
      s!"exit status {status} from " ++ inv.argv.headD ""]
  | _ => [s!"command: {Text.shellLine inv.argv} (cwd={inv.workDir})"]

/-- The notes on a run for those who look for faults. -/
def notes (call : RunCall) (r : RunReport) : List String :=
  (if 1 < r.planned.length then
    [s!"{call.command}: {call.files.length} file(s) split into {r.planned.length} invocation(s)"]
  else []) ++ r.spawned.flatMap fun (inv, ending) => spawnNotes inv ending

end RunReport

end LinterSuite
