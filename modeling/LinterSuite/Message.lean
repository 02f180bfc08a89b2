/-!
# Diagnostics

What a linter says about one place in a file, and the output lines it is read from.

## Main definitions

* `Message`: one diagnostic
* `OutputLine`: a line of output, with the diagnostic read from it
-/

namespace LinterSuite

/-- A diagnostic. Line and column are zero where the linter names none. -/
structure Message where
  /-- The linter, or the program that it names itself. -/
  program : String
  file : Option String
  line : Int
  column : Int
  /-- What the linter says. -/
  text : String
  deriving DecidableEq, Repr

/-- A line of output and the diagnostic it states, if any. -/
structure OutputLine where
  text : String
  message : Option Message
  deriving DecidableEq, Repr

/-- A line from which a diagnostic was read. -/
def OutputLine.isStructured (l : OutputLine) : Bool := l.message.isSome

/-- The diagnostics of some lines, in order. -/
def OutputLine.messages (lines : List OutputLine) : List Message := lines.filterMap (·.message)

/-- The texts of the lines that state no diagnostic, in order. -/
def OutputLine.unstructured (lines : List OutputLine) : List String :=
  lines.filterMap fun l => if l.isStructured then none else some l.text

end LinterSuite
