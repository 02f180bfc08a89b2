import LinterSuite.Execution.Runner
import LinterSuite.Report.Format
import LinterSuite.Report.Notice

/-!
# Events of a run

Everything that a run lets the world know goes into one log: what is selected, called and reported,
warnings, and notes for those who look for faults. The report and the notices are read off the log.

## Main definitions

* `Topic`: the parts of the program that take notes
* `Event`: what happens in a run
* `Event.calls`, `Event.selections`, `Event.milestones`: views of a log
* `Event.report`, `Event.notices`: what a log puts on the two output streams

## Main results

* `Event.report_append`, `Event.notices_append`: logs are printed piece by piece
-/

namespace LinterSuite

/-- The parts of the program that take notes. -/
inductive Topic where
  | configuration | selection | cache | execution | run
  deriving DecidableEq, Repr

/-- The name under which notes are printed. -/
def Topic.name : Topic → String
  | configuration => "multilint.config.loader"
  | selection => "multilint.discovery.selector"
  | cache => "multilint.cache.gate"
  | execution => "multilint.execution.runner"
  | run => "multilint.orchestration.orchestrator"

/-- What happens in a run. -/
inductive Event where
  /-- A note for those who look for faults. -/
  | noted (topic : Topic) (text : String)
  /-- So many files were selected for a linter. -/
  | selected (linter : String) (count : Nat)
  /-- A command was run. -/
  | called (call : RunCall) (report : RunReport)
  | warned (text : String)
  /-- The report on a linter begins. -/
  | started (linter : String)
  /-- The outcome of a linter is reported. -/
  | finished (outcome : Outcome)
  /-- All outcomes were reported. -/
  | completed (count : Nat)
  /-- All processes were told to end. -/
  | terminated

namespace Event

/-- The commands that were run, in order. -/
def calls (log : List Event) : List RunCall :=
  log.filterMap fun
    | called call _ => some call
    | _ => none

/-- The linters for which files were selected, with the number of files. -/
def selections (log : List Event) : List (String × Nat) :=
  log.filterMap fun
    | selected linter count => some (linter, count)
    | _ => none

/-- The warnings, in order. -/
def warnings (log : List Event) : List String :=
  log.filterMap fun
    | warned text => some text
    | _ => none

/-- The events that mark the progress of the report, in order. -/
def milestones (log : List Event) : List Event :=
  log.filter fun
    | started _ | finished _ | completed _ => true
    | _ => false

/-- How many times all processes were told to end. -/
def terminations (log : List Event) : Nat :=
  log.countP fun
    | terminated => true
    | _ => false

/-- What an event adds to the report. -/
def reportText (format : Format) (color : Bool) : Event → String
  | started linter => format.header color linter
  | finished outcome => format.body color outcome
  | _ => ""

/-- The report of a log. -/
def report (format : Format) (color : Bool) (log : List Event) : String :=
  String.join (log.map (reportText format color))

/-- A note as a line. -/
def noteLine (topic : Topic) (text : String) : String := s!"[debug] {topic.name}: {text}\n"

/-- What an event adds to the notices; notes are printed on request. -/
def noticeText (debug : Bool) : Event → String
  | warned text => Notice.warningText false text
  | noted topic text => if debug then noteLine topic text else ""
  | called call report =>
    if debug then String.join ((report.notes call).map (noteLine .execution)) else ""
  | _ => ""

/-- The notices of a log. -/
def notices (debug : Bool) (log : List Event) : String :=
  String.join (log.map (noticeText debug))

theorem report_append (format : Format) (color : Bool) (xs ys : List Event) :
    report format color (xs ++ ys) = report format color xs ++ report format color ys := by
  simp [report]

theorem notices_append (debug : Bool) (xs ys : List Event) :
    notices debug (xs ++ ys) = notices debug xs ++ notices debug ys := by
  simp [notices]

end Event

end LinterSuite
