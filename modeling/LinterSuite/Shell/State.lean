import LinterSuite.FileTree.Basic
import LinterSuite.Keyed
import LinterSuite.Shell.Pattern
import LinterSuite.Text.Blank
import LinterSuite.Text.Order
import LinterSuite.Text.Utf8

/-!
# The state of a running script

A script reads and changes files, variables and its output. Time passes only while it sleeps. A
script that is still asleep when its time is over is ended.

## Main definitions

* `Shell.Sink`, `Shell.Streams`: where output goes
* `Shell.State`: the state of a running script
* `Shell.Flow`: how a command hands on
* `Shell.State.value`: the value of a parameter
* `Shell.State.put`: output of some bytes
* `Shell.State.rest`: sleep

## Main results

* `Shell.State.put_discard`: discarded output changes nothing
-/

namespace LinterSuite.Shell

/-- Where output goes. -/
inductive Sink where
  /-- To whoever runs the script. -/
  | output
  /-- To the command that takes it up. -/
  | capture
  | file (path : Path)
  | discard
  deriving DecidableEq, Repr

/-- Where a command writes. -/
structure Streams where
  output : Sink
  errors : Sink
  deriving DecidableEq, Repr

/-- The state of a running script. Output is kept in pieces, the last first. -/
structure State where
  tree : FileTree
  bindings : List (String × String)
  /-- The name the script was run by. -/
  name : String
  arguments : List String
  /-- The status of the last command. -/
  status : Nat
  /-- What is still to be read. -/
  input : List UInt8
  written : List (List UInt8)
  captured : List (List UInt8)
  /-- Until when processes in the background may write. -/
  occupied : Int
  /-- When the time of the script is over. -/
  deadline : Option Int

/-- How a command hands on to the next. -/
inductive Flow where
  | next
  /-- The script ends. -/
  | exit (status : Nat)
  /-- The script is ended by a signal. -/
  | killed (signal : Nat)
  /-- The time of the script is over. -/
  | overdue
  /-- So many loops are left, the last of which may go on. -/
  | leave (loops : Nat) (again : Bool)
  deriving DecidableEq, Repr

/-- The number of the process of a script. -/
def processNumber : Nat := 4242

namespace State

/-- The value of a parameter, empty if it is unset. -/
def value (s : State) (parameter : String) : String :=
  match parameter with
  | "#" => toString s.arguments.length
  | "?" => toString s.status
  | "$" => toString processNumber
  | "*" | "@" => " ".intercalate s.arguments
  | "0" => s.name
  | "-" | "!" => ""
  | _ => match parameter.toNat? with
    | some (n + 1) => (s.arguments[n]?).getD ""
    | _ => (s.bindings.lookup parameter).getD ""

/-- The state with a variable set. -/
def assign (s : State) (name value : String) : State :=
  { s with bindings := Keyed.put s.bindings name value }

/-- The state after a command with a status. -/
def withStatus (s : State) (status : Nat) : State := { s with status }

/-- The current directory. -/
def directory (s : State) : Path := ⟨.root, s.tree.cwd⟩

/-- The state after some bytes were written. Bytes for a file are put behind what is in it. -/
def put (s : State) (sink : Sink) (bytes : List UInt8) : State :=
  match sink with
  | .discard => s
  | .output => { s with written := bytes :: s.written }
  | .capture => { s with captured := bytes :: s.captured }
  | .file p =>
    let old := (s.tree.read p).toOption.getD []
    { s with tree := (s.tree.write p (old ++ bytes)).toOption.getD s.tree }

@[simp] theorem put_discard (s : State) (bytes : List UInt8) : s.put .discard bytes = s := rfl

/-- The state after some time; the time of the script may be over before. -/
def rest (s : State) (nanoseconds : Int) : Flow × State :=
  let wake := s.tree.clock + nanoseconds
  match s.deadline with
  | some d =>
    if d < wake then (.overdue, { s with tree := { s.tree with clock := d } })
    else (.next, { s with tree := { s.tree with clock := wake } })
  | none => (.next, { s with tree := { s.tree with clock := wake } })

/-- The state of a script after a shell of its own has run some of its commands: only files, output
and time are changed. An end of that shell is a status. -/
def afterShell (outer : State) : Flow × State → Flow × State
  | (flow, inner) =>
    let cwd := outer.tree.cwd
    let s := { inner with
      tree := { inner.tree with cwd }, bindings := outer.bindings, name := outer.name,
      arguments := outer.arguments }
    match flow with
    | .exit status => (.next, s.withStatus status)
    | .leave .. => (.next, s)
    | flow => (flow, s)

/-- The names in the current directory that match a pattern, in order; hidden ones do not. -/
def matchingNames (s : State) (p : List PatternChar) : List String :=
  let entries := ((s.tree.root.get? s.tree.cwd).map Node.entries).getD []
  let names : List String := entries.map Prod.fst
  Text.sorted (names.filter fun n => !n.startsWith "." && matchesPattern p n.toList)

end State

end LinterSuite.Shell
