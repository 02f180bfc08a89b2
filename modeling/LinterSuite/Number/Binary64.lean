/-!
# Binary floating-point numbers

The double-precision numbers of IEEE 754, each as a sign, a significand and a power of two, and
the rounding of exact fractions to them.

## Main definitions

* `Binary64`: a number, an infinity or no number
* `Binary64.ofRatio`: the nearest number to a fraction, ties to the even significand
* `Binary64.ofDecimal`, `Binary64.ofInt`: the nearest number to a decimal or an integer
* `Binary64.integer?`: the value of a number without a fractional part

## Main results

* `Binary64.integer?_zero`: both zeros have the value zero
-/

namespace LinterSuite

/-- A double-precision number. A finite one has the value `significand * 2 ^ exponent`, where the
exponent is the least that leaves the significand below `2 ^ 53`, and at least `-1074`. -/
inductive Binary64 where
  | finite (negative : Bool) (significand : Nat) (exponent : Int)
  | infinity (negative : Bool)
  | nan
  deriving DecidableEq, Repr

namespace Binary64

/-- The least exponent. -/
def minExponent : Int := -1074

/-- The greatest exponent. -/
def maxExponent : Int := 971

/-- Zero with a sign. -/
def zero (negative : Bool) : Binary64 := .finite negative 0 minExponent

/-- The quotient rounded to the nearest integer, a half to the even neighbour. -/
def roundHalfEven (num den : Nat) : Nat :=
  let q := num / den
  let r := num % den
  if den < 2 * r ∨ (den = 2 * r ∧ q % 2 = 1) then q + 1 else q

/-- The fraction `num / den` in units of `2 ^ exponent`, as a fraction. -/
def scale (num den : Nat) (exponent : Int) : Nat × Nat :=
  if exponent < 0 then (num * Nat.pow 2 exponent.natAbs, den)
  else (num, den * Nat.pow 2 exponent.toNat)

/-- The exponent at which a positive fraction has a significand of 53 bits, or the least one. -/
def exponentOf (num den : Nat) : Int :=
  let guess : Int := (num.log2 : Int) - den.log2 - 53
  let units := scale num den (guess + 1)
  let exact := if units.1 < Nat.pow 2 53 * units.2 then
      let finer := scale num den guess
      if finer.1 < Nat.pow 2 53 * finer.2 then guess else guess + 1
    else guess + 2
  max exact minExponent

/-- The number nearest to `num / den`. -/
def ofRatio (negative : Bool) (num den : Nat) : Binary64 :=
  if num = 0 then zero negative
  else
    let e := exponentOf num den
    let units := scale num den e
    let m := roundHalfEven units.1 units.2
    let (m, e) := if m = Nat.pow 2 53 then (Nat.pow 2 52, e + 1) else (m, e)
    if maxExponent < e then .infinity negative else .finite negative m e

/-- How many decimal digits a number has. -/
def decimalLength (n : Nat) : Nat := (Nat.toDigits 10 n).length

/-- The number nearest to `digits * 10 ^ exponent`. Values that are out of range on the face of it
are not computed. -/
def ofDecimal (negative : Bool) (digits : Nat) (exponent : Int) : Binary64 :=
  if digits = 0 then zero negative
  else
    let magnitude := decimalLength digits + exponent
    if 310 < magnitude then .infinity negative
    else if magnitude < -330 then zero negative
    else if exponent < 0 then ofRatio negative digits (Nat.pow 10 exponent.natAbs)
    else ofRatio negative (digits * Nat.pow 10 exponent.toNat) 1

/-- The number nearest to an integer. -/
def ofInt (n : Int) : Binary64 := ofRatio (n < 0) n.natAbs 1

/-- The absolute value of a finite number as a fraction. -/
def magnitude (significand : Nat) (exponent : Int) : Nat × Nat :=
  if exponent < 0 then (significand, Nat.pow 2 exponent.natAbs)
  else (significand * Nat.pow 2 exponent.toNat, 1)

/-- The value of a finite number without a fractional part. -/
def integer? : Binary64 → Option Int
  | .finite negative m e =>
    let (num, den) := magnitude m e
    if num % den = 0 then
      let n : Int := (num / den : Nat)
      some (if negative then -n else n)
    else none
  | _ => none

/-- A number above zero; no number is not. -/
def isPositive : Binary64 → Bool
  | .finite negative m _ => !negative && m != 0
  | .infinity negative => !negative
  | .nan => false

/-- Neither an infinity nor no number. -/
def isFinite : Binary64 → Bool
  | .finite .. => true
  | _ => false

@[simp] theorem integer?_zero (negative : Bool) : (zero negative).integer? = some 0 := by
  cases negative <;> decide +kernel

end Binary64

end LinterSuite
