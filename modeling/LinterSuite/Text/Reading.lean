import LinterSuite.Text.Numeral

/-!
# Reading documents

Readers of document formats take a value from the front of a text and leave the rest. A text that
is no document is refused without a description of the fault, which is left to other tools; a
numeral that is too long, and a document that is nested too deeply, are told apart.

## Main definitions

* `Text.Nesting`, `Text.Nesting.message`: what was begun where a document is nested too deeply
* `Text.ReadError`: why a text is no document
* `Text.Read`: a value with the text behind it, or the fault
-/

namespace LinterSuite.Text

/-- What was begun where a document is nested too deeply. -/
inductive Nesting where
  | value | array | object
  deriving DecidableEq, Repr

namespace Nesting

/-- The report of a depth that is used up. -/
def depthReport : String := "maximum recursion depth exceeded"

/-- The report of a document that is nested too deeply. -/
def message : Nesting → String
  | value => depthReport
  | array => depthReport ++ " while decoding a JSON array from a unicode string"
  | object => depthReport ++ " while decoding a JSON object from a unicode string"

end Nesting

/-- Why a text is not read. -/
inductive ReadError where
  | malformed
  /-- An integer has too many digits. -/
  | numeral (error : NumeralTooLong)
  | tooDeep (at_ : Nesting)
  deriving DecidableEq, Repr

/-- A value and the text behind it. -/
abbrev Read (α : Type) := Except ReadError (α × List Char)

/-- What an optional reading gives, as a reading. -/
def Read.ofOption {α : Type} : Option (α × List Char) → Read α
  | some r => .ok r
  | none => .error .malformed

end LinterSuite.Text
