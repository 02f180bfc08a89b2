import LinterSuite.Message
import LinterSuite.Config.Settings

/-!
# Outcomes

What became of each linter of a run.

## Main definitions

* `Status`: how it ended
* `Outcome`: how one linter ended, with its output and the files it changed
* `Outcome.ofValue?`: an outcome read from a document
* `anyFailed`: a run that some linter made fail

## Main results

* `Status.ofName?_name`: a status is found by its name
-/

namespace LinterSuite

/-- How a linter ended. -/
inductive Status where
  | ok | failed | error | skipped | cached
  deriving DecidableEq, Repr

namespace Status

/-- The name that is printed. -/
def name : Status → String
  | ok => "ok"
  | failed => "failed"
  | error => "error"
  | skipped => "skipped"
  | cached => "cached"

/-- The status of a name. -/
def ofName? (s : String) : Option Status := [ok, failed, error, skipped, cached].find? (·.name == s)

/-- Passed, or needed no run. -/
def succeeded : Status → Bool
  | ok | skipped | cached => true
  | failed | error => false

@[simp] theorem ofName?_name (s : Status) : ofName? s.name = some s := by cases s <;> rfl

end Status

/-- How one linter ended. -/
structure Outcome where
  program : String
  status : Status
  /-- What the program returned, if it ran to its end. -/
  exitStatus : Option Int
  output : String
  lines : List OutputLine
  /-- Why it could not be run to its end. -/
  error : Option String
  files : List String
  /-- The files that changed meanwhile. -/
  modified : List String
  deriving DecidableEq, Repr

namespace Outcome

/-- The outcome of a linter that was not run. -/
def idle (program : String) (status : Status) (files : List String) : Outcome :=
  { program, status, exitStatus := none, output := "", lines := [], error := none, files,
    modified := [] }

/-- Passed, or needed no run. -/
def succeeded (o : Outcome) : Bool := o.status.succeeded

/-- The diagnostics of the output, in order. -/
def messages (o : Outcome) : List Message := OutputLine.messages o.lines

/-- The lines of the output that state no diagnostic, in order. -/
def unstructured (o : Outcome) : List String := OutputLine.unstructured o.lines

end Outcome

/-- Some linter did not pass. -/
def anyFailed (outcomes : List Outcome) : Bool := outcomes.any fun o => !o.succeeded

/-! ### Reading outcomes from documents -/

/-- A member of a table read by `read`, or a default if it is absent. -/
def Table.member {α : Type} (t : Table) (key : String) (default : Option α)
    (read : Value → Option α) : Option α :=
  match t.get? key with
  | none => default
  | some v => read v

/-- A value that may be nothing. -/
def Value.optional {α : Type} (read : Value → Option α) : Value → Option (Option α)
  | .nothing => some none
  | v => (read v).map some

/-- The items of an array. -/
def Value.items? {α : Type} (read : Value → Option α) : Value → Option (List α)
  | .array vs => vs.mapM read
  | _ => none

/-- A diagnostic of a document. -/
def Message.ofValue? : Value → Option Message
  | .table t => do
    return {
      program := ← Table.member t "program" none (·.toText.toOption)
      file := ← Table.member t "file" (some none) (Value.optional (·.toText.toOption))
      line := ← Table.member t "line" (some 0) (·.toInteger.toOption)
      column := ← Table.member t "column" (some 0) (·.toInteger.toOption)
      text := ← Table.member t "message" (some "") (·.toText.toOption) }
  | _ => none

/-- A line of output of a document. -/
def OutputLine.ofValue? : Value → Option OutputLine
  | .table t => do
    return {
      text := ← Table.member t "text" none (·.toText.toOption)
      message := ← Table.member t "message" (some none) (Value.optional Message.ofValue?) }
  | _ => none

/-- A status of a document. -/
def Status.ofValue? : Value → Option Status
  | .string s => Status.ofName? s
  | _ => none

/-- An outcome of a document; members of other names are passed over. -/
def Outcome.ofValue? : Value → Option Outcome
  | .table t => do
    let texts := Value.items? (·.toText.toOption)
    return {
      program := ← Table.member t "program" none (·.toText.toOption)
      status := ← Table.member t "status" none Status.ofValue?
      exitStatus :=
        ← Table.member t "exit_status" (some none) (Value.optional (·.toInteger.toOption))
      output := ← Table.member t "output" (some "") (·.toText.toOption)
      lines := ← Table.member t "lines" (some []) (Value.items? OutputLine.ofValue?)
      error := ← Table.member t "error" (some none) (Value.optional (·.toText.toOption))
      files := ← Table.member t "files" (some []) texts
      modified := ← Table.member t "modified" (some []) texts }
  | _ => none

end LinterSuite
