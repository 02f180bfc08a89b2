import LinterSuite.Grammar.Token
import LinterSuite.Message
import LinterSuite.Text.DecimalDigit
import LinterSuite.Text.Lines
import LinterSuite.Text.Numeral

/-!
# Reading diagnostics from output

A line matches a grammar if it can be cut into one piece per token, each literal verbatim and each
field with characters of its kind. Of all such cuts the one with the longest first field counts,
among those the one with the longest second field, and so on.

## Main definitions

* `Placeholder.admits`, `Placeholder.mayBeEmpty`: the texts of a field
* `Token.captures?`: the fields of a line, cut as described
* `Grammar.message?`: the diagnostic of a line
* `Grammar.parseLine`, `Grammar.parseOutput`: the first of several grammars that matches
-/

namespace LinterSuite

/-- The characters that may stand in a field. -/
def Placeholder.admits : Placeholder → Char → Bool
  | file, c | program, c => c != ':' && 0x1F < c.toNat
  | line, c | column, c => Text.isDecimalDigit c
  | message, c => c != '\n'

/-- Only the message may be empty. -/
def Placeholder.mayBeEmpty : Placeholder → Bool
  | message => true
  | _ => false

/-- The lengths that a field may have in front of `cs`, longest first. -/
def Placeholder.lengths (p : Placeholder) (cs : List Char) : List Nat :=
  let most := (cs.takeWhile p.admits).length
  (List.range (most + 1)).reverse.filter fun n => p.mayBeEmpty || n != 0

/-- What the fields of some tokens capture. -/
abbrev Captures := List (Placeholder × List Char)

/-- The captures of a line that the tokens describe from end to end, each field as long as what
follows allows. -/
def Token.captures? : List Token → List Char → Option Captures
  | [], [] => some []
  | [], _ :: _ => none
  | .literal text :: tokens, cs =>
    if text.isPrefixOf cs then captures? tokens (cs.drop text.length) else none
  | .placeholder p :: tokens, cs =>
    (p.lengths cs).findSome? fun n =>
      (captures? tokens (cs.drop n)).map fun found => (p, cs.take n) :: found

/-- The text that a field captured. -/
def Captures.text? (found : Captures) (p : Placeholder) : Option String :=
  (found.lookup p).map String.ofList

/-- The number that a field captured, zero if the grammar has no such field. -/
def Captures.number (found : Captures) (p : Placeholder) : Except Text.NumeralTooLong Nat :=
  match found.lookup p with
  | none => .ok 0
  | some digits =>
    if Text.numeralLimit < digits.length then .error ⟨digits.length⟩
    else .ok (Text.decimalNumber digits)

/-- The diagnostic that captures state on behalf of `program`. -/
def Captures.message (found : Captures) (program : String) :
    Except Text.NumeralTooLong Message := do
  let line ← found.number .line
  let column ← found.number .column
  return {
    program := (found.text? .program).getD program
    file := found.text? .file
    line
    column
    text := (found.text? .message).getD "" }

namespace Grammar

/-- The diagnostic of a line that the grammar describes. -/
def message? (g : Grammar) (program line : String) :
    Except Text.NumeralTooLong (Option Message) :=
  match Token.captures? g.tokens line.toList with
  | none => .ok none
  | some found => (found.message program).map some

/-- The diagnostic of a line by the first grammar that describes it. -/
def parseLine : List Grammar → (program line : String) →
    Except Text.NumeralTooLong (Option Message)
  | [], _, _ => .ok none
  | g :: grammars, program, line => do
    match ← g.message? program line with
    | some message => return some message
    | none => parseLine grammars program line

/-- The lines of an output, each with its diagnostic. -/
def parseOutput (grammars : List Grammar) (program output : String) :
    Except Text.NumeralTooLong (List OutputLine) :=
  (Text.lines output).mapM fun text => do
    return { text, message := ← parseLine grammars program text }

/-- The grammars that some texts write, or the first fault. -/
def compileAll (sources : List String) : Except GrammarError (List Grammar) :=
  sources.mapM compile

end Grammar

end LinterSuite
