import LinterSuite.Text.Hex

/-!
# Writing JSON

Documents are written in ASCII: every other character is an escape, one beyond the basic plane as a
pair of surrogates.

## Main definitions

* `Json.escaped`: a character inside a string
* `Json.string`: a string literal
* `Json.line`: an object on one line
* `Json.block`: an object with one member on each line
-/

namespace LinterSuite.Json

/-- The four-digit escape of a code unit. -/
def unitEscape (n : Nat) : List Char := '\\' :: 'u' :: Text.hexDigits 4 n

/-- A character inside a string literal. -/
def escaped (c : Char) : List Char :=
  if c = '"' ∨ c = '\\' then ['\\', c]
  else if c = '\n' then ['\\', 'n']
  else if c = '\r' then ['\\', 'r']
  else if c = '\t' then ['\\', 't']
  else if c.toNat = 0x08 then ['\\', 'b']
  else if c.toNat = 0x0C then ['\\', 'f']
  else if 0x20 ≤ c.toNat ∧ c.toNat ≤ 0x7E then [c]
  else if c.toNat ≤ 0xFFFF then unitEscape c.toNat
  else
    let offset := c.toNat - 0x10000
    unitEscape (0xD800 + offset / 0x400) ++ unitEscape (0xDC00 + offset % 0x400)

/-- A string literal. -/
def string (s : String) : String := String.ofList ('"' :: s.toList.flatMap escaped ++ ['"'])

/-- A string literal, or the literal of nothing. -/
def stringOrNull (s : Option String) : String := (s.map string).getD "null"

/-- A truth value. -/
def boolean (b : Bool) : String := if b then "true" else "false"

/-- An object on one line without blanks; the members are written values. -/
def line (members : List (String × String)) : String :=
  "\x7b" ++ ",".intercalate (members.map fun m => string m.1 ++ ":" ++ m.2) ++ "\x7d"

/-- An object with a line for each member, indented by two blanks. -/
def block (members : List (String × String)) : String :=
  "\x7b\n" ++ ",\n".intercalate (members.map fun m => "  " ++ string m.1 ++ ": " ++ m.2) ++ "\n\x7d"

end LinterSuite.Json
