import LinterSuite.Json.Writing
import LinterSuite.Outcome
import LinterSuite.Report.Styled
import LinterSuite.Text.Quoted

/-!
# Report formats

The outcomes of a run are reported one after the other, for people, as the linters wrote them, or
as one line for each diagnostic.

## Main definitions

* `Format`: the formats
* `Message.location`, `Message.jsonLine`, `Message.gnuLine`: a diagnostic as text
* `Outcome.errorMessage`: the diagnostic that stands for a linter that could not be run
* `Format.header`, `Format.body`: the report of one outcome
* `Format.report`: the report of several

## Main results

* `Format.ofName?_name`: a format is found by its name
-/

namespace LinterSuite

/-- The formats of reports. -/
inductive Format where
  /-- Nothing at all. -/
  | null
  /-- Statuses and diagnostics for people. -/
  | text
  /-- The output of the linters. -/
  | raw
  /-- A JSON object for each diagnostic. -/
  | jsonl
  /-- A line in the style of compilers for each diagnostic. -/
  | gnu
  deriving DecidableEq, Repr

namespace Format

/-- The name of a format. -/
def name : Format → String
  | null => "null"
  | text => "text"
  | raw => "raw"
  | jsonl => "jsonl"
  | gnu => "gnu"

/-- All formats. -/
def all : List Format := [null, text, raw, jsonl, gnu]

/-- The format of a name. -/
def ofName? (s : String) : Option Format := all.find? (·.name == s)

/-- The report of a name that no format has. -/
def unknownMessage (s : String) : String := Text.quoted s ++ " is not a valid OutputFormat"

@[simp] theorem ofName?_name (f : Format) : ofName? f.name = some f := by cases f <;> rfl

end Format

namespace Message

/-- File, line and column. -/
def location (m : Message) : String := m.file.getD "" ++ s!":{m.line}:{m.column}"

/-- A diagnostic as a JSON object, its members sorted by name. -/
def jsonLine (m : Message) : String :=
  Json.line [("column", toString m.column), ("file", Json.stringOrNull m.file),
    ("line", toString m.line), ("message", Json.string m.text), ("program", Json.string m.program)]

/-- A diagnostic in the style of compilers, without a location if it names none. -/
def gnuLine (m : Message) : String :=
  if m.file.isNone ∧ m.line = 0 then s!"{m.program}: {m.text}"
  else s!"{m.program}:{m.location}: {m.text}"

end Message

/-- The colour of a status. -/
def Status.style : Status → Style
  | ok => .green
  | failed => .red
  | error => .boldRed
  | skipped => .yellow
  | cached => .cyan

namespace Outcome

/-- The error of a linter, if it says something. -/
def errorText? (o : Outcome) : Option String := o.error.filter (!·.isEmpty)

/-- The diagnostic that tells why a linter could not be run. -/
def errorMessage (o : Outcome) : Message :=
  { program := o.program, file := none, line := 0, column := 0
    text := "error: " ++ o.errorText?.getD "linter could not be run" }

/-- The diagnostics of an outcome in a report of diagnostics alone. -/
def reported (o : Outcome) : List Message :=
  if o.status = .error then [o.errorMessage] else o.messages

end Outcome

/-- A line of output for people: the diagnostic without its program, or the line as it is. -/
def OutputLine.shown (l : OutputLine) : String :=
  match l.message with
  | none => l.text
  | some m => s!"{m.location}: {m.text}"

/-- Lines, each closed by a line feed. -/
def closedLines (lines : List String) : String := String.join (lines.map (· ++ "\n"))

namespace Format

/-- What is printed when a linter is reported on, before its outcome. -/
def header (f : Format) (color : Bool) (program : String) : String :=
  match f with
  | text => Span.paint color [⟨.boldGreen, "Running"⟩, ⟨.plain, s!" {program} ... "⟩]
  | _ => ""

/-- The outcome of a linter for people. -/
def textBody (color : Bool) (o : Outcome) : String :=
  Span.printed color [⟨o.status.style, o.status.name⟩] ++
    closedLines (o.lines.map OutputLine.shown) ++
    (o.errorText?.map fun e => Span.printed color [⟨.red, e⟩]).getD "" ++
    String.join (o.modified.map fun p => Span.printed color [⟨.yellow, s!"{p}: modified"⟩])

/-- The outcome of a linter. -/
def body (f : Format) (color : Bool) (o : Outcome) : String :=
  match f with
  | null => ""
  | text => textBody color o
  | raw => o.output
  | jsonl => closedLines (o.reported.map Message.jsonLine)
  | gnu => closedLines (o.reported.map Message.gnuLine)

/-- The whole report on a linter. -/
def emit (f : Format) (color : Bool) (o : Outcome) : String :=
  f.header color o.program ++ f.body color o

/-- The reports on several linters. -/
def report (f : Format) (color : Bool) (outcomes : List Outcome) : String :=
  String.join (outcomes.map (f.emit color))

end Format

end LinterSuite
