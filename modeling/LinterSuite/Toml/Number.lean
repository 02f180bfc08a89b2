import LinterSuite.Config.Value
import LinterSuite.Number.DecimalText
import LinterSuite.Text.Hex
import LinterSuite.Text.Reading

/-!
# Numbers of TOML

Integers are decimal, hexadecimal, octal or binary; floats have a fraction or an exponent, or are
the words for infinity and no number. A single underscore may stand between two digits.

## Main definitions

* `Toml.digitRun`: digits with underscores between them
* `Toml.number`: a number at the front of a text

## Main results

* `Toml.digitRun_nil`: nothing has no digits
-/

namespace LinterSuite.Toml

open Text (ReadError Read)

/-- The digits behind a first one, without their underscores, and the text behind them. -/
def digitRun (isDigit : Char → Bool) : List Char → List Char × List Char
  | '_' :: c :: cs =>
    if isDigit c then
      let r := digitRun isDigit cs
      (c :: r.1, r.2)
    else ([], '_' :: c :: cs)
  | c :: cs =>
    if isDigit c then
      let r := digitRun isDigit cs
      (c :: r.1, r.2)
    else ([], c :: cs)
  | [] => ([], [])

@[simp] theorem digitRun_nil (isDigit : Char → Bool) : digitRun isDigit [] = ([], []) := rfl

/-- Digits in front of a text, at least one. -/
def digits? (isDigit : Char → Bool) : List Char → Option (List Char × List Char)
  | c :: cs => if isDigit c then some (digitRun isDigit (c :: cs)) else none
  | [] => none

/-- The digits of a base below sixteen. -/
def isDigitOf (base : Nat) (c : Char) : Bool :=
  match Text.hexValue? c with
  | some n => n < base
  | none => false

/-- The integer with a base of its own at the front of a text. -/
def basedInteger? : List Char → Option (Nat × List Char)
  | '0' :: mark :: cs => do
    let base ← match mark with
      | 'x' => some 16
      | 'o' => some 8
      | 'b' => some 2
      | _ => none
    let (ds, rest) ← digits? (isDigitOf base) cs
    return (ds.foldl (fun n d => base * n + (Text.hexValue? d).getD 0) 0, rest)
  | _ => none

/-- The whole part of a decimal number: a zero, or digits that begin with another. -/
def whole? : List Char → Option (List Char × List Char)
  | '0' :: cs => some (['0'], cs)
  | cs => digits? Char.isDigit cs

/-- The fraction behind a whole part. -/
def fraction? : List Char → Option (List Char × List Char)
  | '.' :: cs => digits? Char.isDigit cs
  | _ => none

/-- The exponent behind a number. -/
def exponent? : List Char → Option (Int × List Char)
  | e :: cs =>
    if e = 'e' ∨ e = 'E' then
      let (negative, body) := Binary64.splitSign cs
      (digits? Char.isDigit body).map fun (ds, rest) =>
        let n : Int := Binary64.digitsValue ds
        (if negative then -n else n, rest)
    else none
  | [] => none

/-- A decimal number behind its sign. -/
def decimal (negative : Bool) (cs : List Char) : Read Value :=
  match whole? cs with
  | none => .error .malformed
  | some (whole, rest) =>
    let fraction := fraction? rest
    let rest := (fraction.map (·.2)).getD rest
    let exponent := exponent? rest
    let rest := (exponent.map (·.2)).getD rest
    if fraction.isNone && exponent.isNone then
      if Text.numeralLimit < whole.length then .error (.numeral ⟨whole.length⟩)
      else
        let n : Int := Binary64.digitsValue whole
        .ok (.integer (if negative then -n else n), rest)
    else
      let places := (fraction.map (·.1)).getD []
      .ok (.float (Binary64.ofDecimal negative (Binary64.digitsValue (whole ++ places))
        ((exponent.map (·.1)).getD 0 - places.length)), rest)

/-- A number at the front of a text. -/
def number (cs : List Char) : Read Value :=
  match basedInteger? cs with
  | some (n, rest) => .ok (.integer n, rest)
  | none =>
    let (negative, body) := Binary64.splitSign cs
    match body with
    | 'i' :: 'n' :: 'f' :: rest => .ok (.float (.infinity negative), rest)
    | 'n' :: 'a' :: 'n' :: rest => .ok (.float .nan, rest)
    | _ => decimal negative body

end LinterSuite.Toml
