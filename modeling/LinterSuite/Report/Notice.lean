import LinterSuite.Report.Styled

/-!
# Notices

What the program tells its user beside the report, on the error stream.

## Main definitions

* `Notice.warningText`, `Notice.failureText`: a warning and a failure
-/

namespace LinterSuite.Notice

/-- The sign in front of a warning. -/
def warningSign : String := "\u26A0\uFE0F "

/-- The sign in front of a failure. -/
def failureSign : String := "\u274C "

/-- A notice with a sign in front of it if signs are wanted; notices are not coloured. -/
def text (sign : String) (signs : Bool) (message : String) : String :=
  Span.printed false [⟨.plain, (if signs then sign else "") ++ message⟩]

/-- A warning. -/
def warningText (signs : Bool) (message : String) : String := text warningSign signs message

/-- A failure. -/
def failureText (signs : Bool) (message : String) : String := text failureSign signs message

end LinterSuite.Notice
