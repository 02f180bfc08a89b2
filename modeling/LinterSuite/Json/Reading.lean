import LinterSuite.Config.Value
import LinterSuite.Number.DecimalText
import LinterSuite.Text.Hex
import LinterSuite.Text.Reading

/-!
# Reading JSON

A document is one value with blanks around it. Beyond the standard, the names of infinity and of no
number are numbers. Of members with the same name the last counts.

## Main definitions

* `Json.stringBody?`, `Json.number?`: the scalar values
* `Json.read`: the value of a document
-/

namespace LinterSuite.Json

open Text (ReadError Read)

/-- The text without blanks in front. -/
def skipBlanks (cs : List Char) : List Char :=
  cs.dropWhile fun c => c == ' ' || c == '\t' || c == '\n' || c == '\r'

/-- The number of four hexadecimal digits. -/
def unit? (a b c d : Char) : Option Nat := do
  return (((← Text.hexValue? a) * 16 + (← Text.hexValue? b)) * 16 + (← Text.hexValue? c)) * 16 +
    (← Text.hexValue? d)

/-- The character that a letter behind a backslash stands for. -/
def escape? : Char → Option Nat
  | '"' => some 0x22
  | '\\' => some 0x5C
  | '/' => some 0x2F
  | 'b' => some 0x08
  | 'f' => some 0x0C
  | 'n' => some 0x0A
  | 'r' => some 0x0D
  | 't' => some 0x09
  | _ => none

/-- The code points of a string literal behind its opening quote, and the text behind it. -/
def stringBody? : List Char → Option (List Nat × List Char)
  | [] => none
  | '"' :: rest => some ([], rest)
  | '\\' :: 'u' :: a :: b :: c :: d :: rest => do
    let n ← unit? a b c d
    let (ns, rest) ← stringBody? rest
    return (n :: ns, rest)
  | '\\' :: e :: rest => do
    let n ← escape? e
    let (ns, rest) ← stringBody? rest
    return (n :: ns, rest)
  | c :: rest =>
    if c.toNat < 0x20 ∨ c = '\\' then none
    else (stringBody? rest).map fun (ns, rest) => (c.toNat :: ns, rest)

/-- The characters of code points, the halves of a pair joined; nothing if a half stands alone. -/
def joinHalves : List Nat → Option (List Char)
  | [] => some []
  | [n] => if 0xD800 ≤ n ∧ n ≤ 0xDFFF then none else some [Char.ofNat n]
  | n :: m :: rest =>
    if 0xD800 ≤ n ∧ n ≤ 0xDBFF ∧ 0xDC00 ≤ m ∧ m ≤ 0xDFFF then
      (joinHalves rest).map (Char.ofNat (0x10000 + (n - 0xD800) * 0x400 + (m - 0xDC00)) :: ·)
    else if 0xD800 ≤ n ∧ n ≤ 0xDFFF then none
    else (joinHalves (m :: rest)).map (Char.ofNat n :: ·)

/-- A string literal behind its opening quote. -/
def text? (cs : List Char) : Option (Option String × List Char) :=
  (stringBody? cs).map fun (ns, rest) => ((joinHalves ns).map String.ofList, rest)

/-- The digits behind a point, if there are any. -/
def splitFraction (cs : List Char) : List Char × List Char :=
  match cs with
  | '.' :: rest =>
    let digits := rest.takeWhile Char.isDigit
    if digits.isEmpty then ([], cs) else (digits, rest.dropWhile Char.isDigit)
  | _ => ([], cs)

/-- The exponent at the front of a text, if there is one. -/
def splitExponent (cs : List Char) : Option Int × List Char :=
  match cs with
  | e :: rest =>
    if e = 'e' ∨ e = 'E' then
      let (negative, body) := Binary64.splitSign rest
      let digits := body.takeWhile Char.isDigit
      if digits.isEmpty then (none, cs)
      else
        let n : Int := Binary64.digitsValue digits
        (some (if negative then -n else n), body.dropWhile Char.isDigit)
    else (none, cs)
  | [] => (none, cs)

/-- A number behind its sign: an integer, or a float if it has a fraction or an exponent. -/
def unsigned (negative : Bool) (cs : List Char) : Read Value :=
  let whole := match cs with
    | '0' :: _ => ['0']
    | _ => cs.takeWhile Char.isDigit
  if whole.isEmpty then .error .malformed
  else
    let (fraction, rest) := splitFraction (cs.drop whole.length)
    let (exponent, rest) := splitExponent rest
    if fraction.isEmpty && exponent.isNone then
      if Text.numeralLimit < whole.length then .error (.numeral ⟨whole.length⟩)
      else
        let n : Int := Binary64.digitsValue whole
        .ok (.integer (if negative then -n else n), rest)
    else
      let x := Binary64.ofDecimal negative (Binary64.digitsValue (whole ++ fraction))
        (exponent.getD 0 - fraction.length)
      .ok (.float x, rest)

/-- The literals that are words. -/
def words : List (List Char × Value) :=
  [("null".toList, .nothing), ("true".toList, .boolean true), ("false".toList, .boolean false),
    ("NaN".toList, .float .nan), ("Infinity".toList, .float (.infinity false)),
    ("-Infinity".toList, .float (.infinity true))]

/-- A value that is no string, array or object. -/
def atom (cs : List Char) : Read Value :=
  match words.find? fun w => w.1.isPrefixOf cs with
  | some (word, v) => .ok (v, cs.drop word.length)
  | none => match cs with
    | '-' :: rest => unsigned true rest
    | _ => unsigned false cs

/-- How many arrays and objects may be nested. -/
def depthLimit : Nat := 979

mutual

/-- A value at the front of a text, with room for so many arrays and objects in each other. The fuel
bounds the depth and the number of members; every bracket takes two of it. -/
def value : (fuel room : Nat) → List Char → Read Value
  | 0, _, _ => .error .malformed
  | fuel + 1, room, cs =>
    match cs with
    | '"' :: rest =>
      match text? rest with
      | none => .error .malformed
      | some (s, rest) => .ok ((s.map Value.string).getD .brokenString, rest)
    | '[' :: rest =>
      if room = 0 then .error (.tooDeep .array)
      else match skipBlanks rest with
        | ']' :: rest => .ok (.array [], rest)
        | rest => (items fuel (room - 1) rest).map fun (vs, rest) => (.array vs, rest)
    | '\x7b' :: rest =>
      if room = 0 then .error (.tooDeep .object)
      else match skipBlanks rest with
        | '\x7d' :: rest => .ok (.table [], rest)
        | rest => (members fuel (room - 1) [] rest).map fun (t, rest) => (.table t, rest)
    | _ => atom cs

/-- The items of an array up to its closing bracket. -/
def items : (fuel room : Nat) → List Char → Read (List Value)
  | 0, _, _ => .error .malformed
  | fuel + 1, room, cs =>
    match value fuel room cs with
    | .error e => .error e
    | .ok (v, rest) =>
      match skipBlanks rest with
      | ']' :: rest => .ok ([v], rest)
      | ',' :: rest => (items fuel room (skipBlanks rest)).map fun (vs, rest) => (v :: vs, rest)
      | _ => .error .malformed

/-- The members of an object up to its closing brace, behind the members `t`. -/
def members : (fuel room : Nat) → Table → List Char → Read Table
  | 0, _, _, _ => .error .malformed
  | fuel + 1, room, t, cs =>
    match cs with
    | '"' :: rest =>
      match text? rest with
      | none => .error .malformed
      | some (key, rest) =>
        match skipBlanks rest with
        | ':' :: rest =>
          match value fuel room (skipBlanks rest) with
          | .error e => .error e
          | .ok (v, rest) =>
            let t := (key.map fun k => Table.put t k v).getD t
            match skipBlanks rest with
            | '\x7d' :: rest => .ok (t, rest)
            | ',' :: rest => members fuel room t (skipBlanks rest)
            | _ => .error .malformed
        | _ => .error .malformed
    | _ => .error .malformed

end

/-- The value of a document. -/
def read (s : String) : Except ReadError Value :=
  let cs := skipBlanks s.toList
  match value (2 * s.toList.length + 1) depthLimit cs with
  | .error e => .error e
  | .ok (v, rest) => if (skipBlanks rest).isEmpty then .ok v else .error .malformed

end LinterSuite.Json
