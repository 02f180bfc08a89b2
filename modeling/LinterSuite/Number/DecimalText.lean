import LinterSuite.Number.Binary64

/-!
# Decimal text of floating-point numbers

A number is written with the fewest digits that read back as the same number, and of those with the
digits nearest to it; or with a fixed count of places behind the point.

## Main definitions

* `Binary64.shortestDigits`: the digits and the place of the point
* `Binary64.text`: positional between `1e-4` and `1e16`, else with an exponent
* `Binary64.fixedText`: a fixed number of places, a half to the even digit
* `Binary64.ofText?`: the number that a decimal text writes
-/

namespace LinterSuite.Binary64

/-- The digits of a number in base ten. -/
def decimalDigits (n : Nat) : List Char := Nat.toDigits 10 n

/-- How a finite number compares with the grid of decimals of `10 ^ place`: the grid points around
its magnitude and the remainder over the lower one, with its denominator. -/
def gridPoint (significand : Nat) (exponent : Int) (place : Int) : Nat × Nat × Nat :=
  let (num, den) := magnitude significand exponent
  let (num, den) :=
    if place < 0 then (num * Nat.pow 10 place.natAbs, den) else (num, den * Nat.pow 10 place.toNat)
  (num / den, num % den, den)

/-- The decimal of the grid of `10 ^ place` that reads back as the given magnitude, the nearer of
two, the even one of two as near. -/
def readsBack? (significand : Nat) (exponent : Int) (place : Int) : Option Nat :=
  let (low, rest, den) := gridPoint significand exponent place
  let same (n : Nat) : Bool := ofDecimal false n place == .finite false significand exponent
  let lowFirst := 2 * rest < den || (2 * rest == den && low % 2 == 0)
  let (first, second) := if lowFirst then (low, low + 1) else (low + 1, low)
  if first != 0 && same first then some first
  else if second != 0 && same second then some second
  else none

/-- The power of ten just above a positive magnitude, found upwards from a lower bound. -/
def magnitudePlace (num den : Nat) : (steps : Nat) → (place : Int) → Int
  | 0, place => place
  | steps + 1, place =>
    let below :=
      if place < 0 then num * Nat.pow 10 place.natAbs < den
      else num < den * Nat.pow 10 place.toNat
    if below then place else magnitudePlace num den steps (place + 1)

/-- Drops the zeros at the end of a decimal and moves the point accordingly. -/
def dropTrailingZeros : (steps : Nat) → Nat → Int → Nat × Int
  | 0, n, place => (n, place)
  | steps + 1, n, place =>
    if n % 10 = 0 ∧ n ≠ 0 then dropTrailingZeros steps (n / 10) (place + 1) else (n, place)

/-- The first of the grids with 1, 2, … digits that has a decimal that reads back. -/
def shortestOnGrid (significand : Nat) (exponent : Int) (top : Int) : List Nat → Nat × Int
  | [] => (significand, exponent)
  | count :: counts =>
    match readsBack? significand exponent (top - count) with
    | some n => dropTrailingZeros 20 n (top - count)
    | none => shortestOnGrid significand exponent top counts

/-- The digits of the shortest decimal of a positive magnitude, and the power of ten of the last
one. -/
def shortestDigits (significand : Nat) (exponent : Int) : Nat × Int :=
  let (num, den) := magnitude significand exponent
  let lower : Int := ((significand.log2 : Int) + exponent) * 30103 / 100000 - 1
  let top := magnitudePlace num den 8 lower
  shortestOnGrid significand exponent top ((List.range 17).map (· + 1))

/-- A decimal exponent: a sign and at least two digits. -/
def exponentText (n : Int) : String :=
  let digits := toString n.natAbs
  (if n < 0 then "e-" else "e+") ++ (if digits.length < 2 then "0" ++ digits else digits)

/-- A positive decimal, given by its digits and the power of ten of the last one. -/
def decimalText (n : Nat) (place : Int) : String :=
  let digits := decimalDigits n
  let point : Int := digits.length + place
  if -4 < point ∧ point ≤ 16 then
    if point ≤ 0 then String.ofList ("0.".toList ++ List.replicate point.natAbs '0' ++ digits)
    else if digits.length ≤ point.toNat then
      String.ofList (digits ++ List.replicate (point.toNat - digits.length) '0' ++ ".0".toList)
    else String.ofList (digits.take point.toNat ++ '.' :: digits.drop point.toNat)
  else
    let fraction := digits.drop 1
    String.ofList (digits.take 1 ++ (if fraction.isEmpty then [] else '.' :: fraction)) ++
      exponentText (point - 1)

/-- The shortest text of a number. -/
def text : Binary64 → String
  | .nan => "nan"
  | .infinity negative => if negative then "-inf" else "inf"
  | .finite negative m e =>
    let sign := if negative then "-" else ""
    if m = 0 then sign ++ "0.0"
    else
      let (n, place) := shortestDigits m e
      sign ++ decimalText n place

/-- The text of a number with `places` digits behind the point. -/
def fixedText (places : Nat) : Binary64 → String
  | .nan => "nan"
  | .infinity negative => if negative then "-inf" else "inf"
  | .finite negative m e =>
    let (num, den) := magnitude m e
    let n := roundHalfEven (num * Nat.pow 10 places) den
    let digits := decimalDigits n
    let padded := List.replicate (places + 1 - digits.length) '0' ++ digits
    let whole := padded.take (padded.length - places)
    let fraction := padded.drop (padded.length - places)
    String.ofList ((if negative then ['-'] else []) ++ whole ++
      (if places = 0 then [] else '.' :: fraction))

/-- The value of a run of ASCII digits. -/
def digitsValue (cs : List Char) : Nat :=
  cs.foldl (fun n c => 10 * n + (c.toNat - 0x30)) 0

/-- A sign in front of a text: whether it is a minus, and the text behind it. -/
def splitSign : List Char → Bool × List Char
  | '-' :: cs => (true, cs)
  | '+' :: cs => (false, cs)
  | cs => (false, cs)

/-- An exponent at the end of a decimal text, zero if there is none. -/
def exponent? : List Char → Option Int
  | [] => some 0
  | c :: cs =>
    if c = 'e' ∨ c = 'E' then
      let (negative, digits) := splitSign cs
      if digits.isEmpty || !digits.all Char.isDigit then none
      else some (if negative then -(digitsValue digits) else digitsValue digits)
    else none

/-- The number written by digits, perhaps a point, and perhaps an exponent. -/
def ofUnsignedText? (negative : Bool) (cs : List Char) : Option Binary64 := do
  let whole := cs.takeWhile Char.isDigit
  let rest := cs.dropWhile Char.isDigit
  let (fraction, rest) := match rest with
    | '.' :: rest => (rest.takeWhile Char.isDigit, rest.dropWhile Char.isDigit)
    | _ => ([], rest)
  if whole.isEmpty && fraction.isEmpty then none
  else
    let e ← exponent? rest
    return ofDecimal negative (digitsValue (whole ++ fraction)) (e - fraction.length)

/-- The number that a text writes: a decimal, or a name of infinity or of no number in any case. -/
def ofText? (s : String) : Option Binary64 :=
  let (negative, cs) := splitSign s.toList
  let name := String.ofList (cs.map Char.toLower)
  if name == "inf" || name == "infinity" then some (.infinity negative)
  else if name == "nan" then some .nan
  else ofUnsignedText? negative cs

end LinterSuite.Binary64
