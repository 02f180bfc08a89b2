/-!
# Limits on written numbers

A number is read from decimal digits only up to a fixed count of them, leading zeros included.

## Main definitions

* `Text.numeralLimit`: the most digits that are read
* `Text.NumeralTooLong`: the refusal of a longer numeral
-/

namespace LinterSuite.Text

/-- The most decimal digits that a numeral may have. -/
def numeralLimit : Nat := 4300

/-- A numeral with more digits than are read. -/
structure NumeralTooLong where
  /-- How many digits it has. -/
  digits : Nat
  deriving DecidableEq, Repr

/-- The report of a numeral that is too long. -/
def NumeralTooLong.message (e : NumeralTooLong) : String :=
  s!"Exceeds the limit ({numeralLimit} digits) for integer string conversion: value has " ++
    s!"{e.digits} digits; use sys.set_int_max_str_digits() to increase the limit"

end LinterSuite.Text
