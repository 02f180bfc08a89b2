import LinterSuite.Number.DecimalText

/-!
# Failed executions

Why a linter was not run to its end.

## Main definitions

* `ExecutionFailure`: a run that was not started or not finished, with what it wrote
* `ExecutionFailure.message`: its report
* `WaitError`: why a process cannot be waited for as long as its time limit says
* `Binary64.waitError?`: the fault of a time limit
-/

namespace LinterSuite

/-- What kept a command from running to its end. -/
inductive ExecutionCause where
  /-- Some other reason, in words. -/
  | reason (text : String)
  /-- It took longer than this many seconds. -/
  | timeout (seconds : Binary64)
  deriving DecidableEq, Repr

/-- A command that was not run to its end. -/
structure ExecutionFailure where
  cause : ExecutionCause
  /-- The words of the command. -/
  command : List String
  /-- What was written before. -/
  output : String
  deriving DecidableEq, Repr

/-- The report of a failed execution. -/
def ExecutionFailure.message (f : ExecutionFailure) : String :=
  match f.cause with
  | .reason text => text
  | .timeout seconds => "Command timed out after " ++ seconds.fixedText 1 ++ "s"

/-! ### Time limits -/

/-- Why a process cannot be waited for as long as its time limit says. -/
inductive WaitError where
  /-- The limit is no number. -/
  | notANumber
  /-- The milliseconds are out of the range of numbers. -/
  | endless
  /-- The nanoseconds do not fit into 64 bits. -/
  | noTimestamp
  /-- The milliseconds do not fit into 32 bits. -/
  | tooLong
  deriving DecidableEq, Repr

/-- The report of a time limit that cannot be waited for. -/
def WaitError.message : WaitError → String
  | notANumber => "cannot convert float NaN to integer"
  | endless => "cannot convert float infinity to integer"
  | noTimestamp => "timestamp too large to convert to C _PyTime_t"
  | tooLong => "timeout is too large"

/-- What is wrong with a time limit of so many seconds. It is waited for in whole milliseconds, a
part of one being one more. -/
def Binary64.waitError? : Binary64 → Option WaitError
  | .finite false m e =>
    let (num, den) := magnitude m e
    match ofRatio false (num * 1000) den with
    | .finite _ m e =>
      let (num, den) := magnitude m e
      let milliseconds := (num + den - 1) / den
      if (Nat.pow 2 63 - 1) / 1000000 < milliseconds then some .noTimestamp
      else if Nat.pow 2 31 - 1 < milliseconds then some .tooLong
      else none
    | _ => some .endless
  | .infinity false => some .endless
  | .nan => some .notANumber
  | .finite true .. | .infinity true => none

end LinterSuite
