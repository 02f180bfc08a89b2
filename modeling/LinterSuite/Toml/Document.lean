import LinterSuite.Toml.Moment
import LinterSuite.Toml.Nest
import LinterSuite.Toml.Number
import LinterSuite.Toml.Scalar

/-!
# TOML documents

A document is a sequence of lines, each with a header or with a key and its value, which may run
over several lines. Blanks and comments say nothing.

## Main definitions

* `Toml.value`: a value at the front of a text
* `Toml.Statement`: what a line says
* `Toml.Draft`: a document under construction
* `Toml.read`: the table of a document
-/

namespace LinterSuite.Toml

open Text (ReadError Read)

/-! ### Values -/

/-- The constructor of a string value over a reading of its text. -/
def stringOf (r : Option (List Char × List Char)) : Read Value :=
  .ofOption (r.map fun r => (.string (String.ofList r.1), r.2))

/-- A word for a truth value, a date or time, or a number. -/
def atom (cs : List Char) : Read Value :=
  if "true".toList.isPrefixOf cs then .ok (.boolean true, cs.drop 4)
  else if "false".toList.isPrefixOf cs then .ok (.boolean false, cs.drop 5)
  else match moment? cs with
    | some (some v, rest) => .ok (v, rest)
    | some (none, _) => .error .malformed
    | none => number cs

/-- The room that values in each other may take: one for each value, one more for an array, and two
more for a table with members. -/
def depthLimit : Nat := 976

mutual

/-- A value at the front of a text, in some room for the values in it. The fuel bounds the depth and
the number of items; every bracket takes two of it. -/
def value : (fuel room : Nat) → List Char → Read Value
  | 0, _, _ => .error .malformed
  | fuel + 1, room, cs =>
    if room = 0 then .error (.tooDeep .value)
    else match cs with
      | '"' :: '"' :: '"' :: rest => stringOf (longBasic? rest)
      | '"' :: rest => stringOf (basic? rest)
      | '\'' :: '\'' :: '\'' :: rest => stringOf (longLiteral? rest)
      | '\'' :: rest => stringOf (literal? rest)
      | '[' :: rest =>
        if room < 2 then .error (.tooDeep .value)
        else (items fuel (room - 2) rest).map fun (vs, rest) => (.array vs, rest)
      | '\x7b' :: rest =>
        if room < 2 then .error (.tooDeep .value)
        else match skipSpaces rest with
          | '\x7d' :: rest => .ok (.table [], rest)
          | rest =>
            if room < 3 then .error (.tooDeep .value)
            else (members fuel (room - 3) [] rest).map fun (es, rest) =>
              (.table (Nests.toTable es), rest)
      | _ => atom cs

/-- The items of an array up to its closing bracket; a comma may stand behind the last. -/
def items : (fuel room : Nat) → List Char → Read (List Value)
  | 0, _, _ => .error .malformed
  | fuel + 1, room, cs =>
    match skipGaps? (cs.length + 1) cs with
    | none => .error .malformed
    | some (']' :: rest) => .ok ([], rest)
    | some rest =>
      match value fuel room rest with
      | .error e => .error e
      | .ok (v, rest) =>
        match skipGaps? (rest.length + 1) rest with
        | some (']' :: rest) => .ok ([v], rest)
        | some (',' :: rest) => (items fuel room rest).map fun (vs, rest) => (v :: vs, rest)
        | _ => .error .malformed

/-- The members of a table on one line up to its closing brace, behind the members `es`. -/
def members : (fuel room : Nat) → Nests → List Char → Read Nests
  | 0, _, _, _ => .error .malformed
  | fuel + 1, room, es, cs =>
    match key? cs with
    | some (key, '=' :: rest) =>
      match value fuel room (skipSpaces rest) with
      | .error e => .error e
      | .ok (v, rest) =>
        match Nests.define? 0 v key es with
        | none => .error .malformed
        | some es =>
          match skipSpaces rest with
          | '\x7d' :: rest => .ok (es, rest)
          | ',' :: rest => members fuel room es (skipSpaces rest)
          | _ => .error .malformed
    | _ => .error .malformed

end

/-! ### Statements -/

/-- What a line says. -/
inductive Statement where
  | nothing
  /-- The header of a table. -/
  | table (key : List String)
  /-- The header of one more table of an array. -/
  | element (key : List String)
  | pair (key : List String) (v : Value)

/-- A statement at the front of a text, spaces in front of it skipped. -/
def statement (cs : List Char) : Read Statement :=
  match cs with
  | '[' :: '[' :: rest =>
    match key? (skipSpaces rest) with
    | some (key, ']' :: ']' :: rest) => .ok (.element key, rest)
    | _ => .error .malformed
  | '[' :: rest =>
    match key? (skipSpaces rest) with
    | some (key, ']' :: rest) => .ok (.table key, rest)
    | _ => .error .malformed
  | [] => .ok (.nothing, [])
  | c :: _ =>
    if c = '\n' ∨ c = '#' then .ok (.nothing, cs)
    else match key? cs with
      | some (key, '=' :: rest) =>
        (value (2 * rest.length + 1) depthLimit (skipSpaces rest)).map fun (v, rest) =>
          (.pair key v, rest)
      | _ => .error .malformed

/-- A document under construction. -/
structure Draft where
  entries : Nests
  /-- The key of the open table. -/
  header : List String
  /-- How many headers there were. -/
  sections : Nat

namespace Draft

/-- The draft with what a statement says. -/
def add? (d : Draft) : Statement → Option Draft
  | .nothing => some d
  | .table key =>
    (Nests.openTable? key d.entries).map fun es => ⟨es, key, d.sections + 1⟩
  | .element key =>
    (Nests.addTable? key d.entries).map fun es => ⟨es, key, d.sections + 1⟩
  | .pair key v =>
    (Nests.within? (Nests.define? d.sections v key) d.header d.entries).map fun es =>
      { d with entries := es }

/-- The draft of a whole document. The fuel bounds the number of lines. -/
def finish (d : Draft) : (fuel : Nat) → List Char → Except ReadError Draft
  | 0, _ => .error .malformed
  | fuel + 1, cs =>
    match statement (skipSpaces cs) with
    | .error e => .error e
    | .ok (s, rest) =>
      match d.add? s, skipComment? (skipSpaces rest) with
      | some d, some [] => .ok d
      | some d, some ('\n' :: rest) => finish d fuel rest
      | _, _ => .error .malformed

end Draft

/-- The text with line feeds for the breaks of two characters. -/
def unifyBreaks : List Char → List Char
  | '\r' :: '\n' :: cs => '\n' :: unifyBreaks cs
  | c :: cs => c :: unifyBreaks cs
  | [] => []

/-- The table of a document. -/
def read (s : String) : Except ReadError Table :=
  let cs := unifyBreaks s.toList
  (Draft.finish ⟨[], [], 0⟩ (cs.length + 1) cs).map fun d => Nests.toTable d.entries

end LinterSuite.Toml
