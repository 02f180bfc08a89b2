import LinterSuite.Text.Hex
import LinterSuite.Text.Printable

/-!
# Quoted texts in messages

Messages show a piece of input between quotes, so that blanks at its ends and characters without a
printed form stay visible.

## Main definitions

* `Text.quoteMark`: the quote in use, a double one only where that saves escapes
* `Text.quoted`: the text between quotes
-/

namespace LinterSuite.Text

/-- A single quote, unless the text has single quotes and no double one. -/
def quoteMark (cs : List Char) : Char :=
  if cs.contains '\'' && !cs.contains '"' then '"' else '\''

/-- One character between quotes `mark`. -/
def quotedChar (mark c : Char) : List Char :=
  if c = mark ∨ c = '\\' then ['\\', c]
  else if c = '\n' then ['\\', 'n']
  else if c = '\r' then ['\\', 'r']
  else if c = '\t' then ['\\', 't']
  else if isPrintable c then [c]
  else if c.toNat ≤ 0xFF then '\\' :: 'x' :: hexDigits 2 c.toNat
  else if c.toNat ≤ 0xFFFF then '\\' :: 'u' :: hexDigits 4 c.toNat
  else '\\' :: 'U' :: hexDigits 8 c.toNat

/-- The text between quotes, with escapes for all that would not show. -/
def quoted (s : String) : String :=
  let mark := quoteMark s.toList
  String.ofList (mark :: s.toList.flatMap (quotedChar mark) ++ [mark])

end LinterSuite.Text
