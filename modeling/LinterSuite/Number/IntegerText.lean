import LinterSuite.Number.DecimalText
import LinterSuite.Text.Blank
import LinterSuite.Text.Numeral

/-!
# Integers written by hand

An integer in its strict form is a run of digits without a zero in front of others, perhaps behind a
minus sign. The form that people write is looser: white space around, a plus sign, zeros in front, a
point with nothing but zeros behind it, and underscores between groups of digits.

## Main definitions

* `IntegerText.strict`: the integer of a strict form, up to a length
* `IntegerText.strictForm?`: the strict form that a loose one stands for
* `IntegerText.read`: the integer that a text writes in either form

## Main results

* `IntegerText.strict_zero`: a single zero is a strict form
-/

namespace LinterSuite.IntegerText

/-- Why a text writes no integer. -/
inductive Refusal where
  | unclear
  /-- It starts with more digits than are read. -/
  | tooLong
  deriving DecidableEq, Repr

/-- White space around a number: the four separators of ASCII are none. -/
def isPadding (c : Char) : Bool := Text.isBlank c && !(0x1C ≤ c.toNat && c.toNat ≤ 0x1F)

/-- A text without white space around it. -/
def trim (cs : List Char) : List Char :=
  ((cs.dropWhile isPadding).reverse.dropWhile isPadding).reverse

/-- A minus sign in front of a text, and the text behind it. -/
def splitMinus : List Char → Bool × List Char
  | '-' :: cs => (true, cs)
  | cs => (false, cs)

/-- The integer of a strict form. The sign counts towards the length, and a run of digits that is
too long is refused as such whatever stands behind it. -/
def strict (cs : List Char) : Except Refusal Int :=
  let (negative, body) := splitMinus cs
  let digits := body.takeWhile Char.isDigit
  if digits.isEmpty || (digits.head? == some '0' && digits.length != 1) then .error .unclear
  else if Text.numeralLimit < digits.length + (if negative then 1 else 0) then .error .tooLong
  else if digits.length != body.length then .error .unclear
  else
    let n : Int := Binary64.digitsValue digits
    .ok (if negative then -n else n)

/-- What is left behind a zero and the zeros and underscores that follow it: a number from its first
digit on, or from the last of them if a point follows, or the last of them alone. -/
def afterZero (last : Char) : List Char → Option (List Char)
  | [] => some [last]
  | c :: cs =>
    if c = '0' ∨ c = '_' then afterZero c cs
    else if c.isDigit ∨ c = '-' then some (c :: cs)
    else if c = '.' then some (last :: c :: cs)
    else none

/-- A text without zeros in front of its number; it must start with a digit or a minus sign. -/
def dropZeros? : List Char → Option (List Char)
  | [] => none
  | c :: cs =>
    if c = '0' then afterZero c cs
    else if c.isDigit ∨ c = '-' then some (c :: cs)
    else none

/-- A text without a point that has zeros, and nothing else, behind it. -/
def dropZeroFraction (cs : List Char) : List Char :=
  match cs.dropWhile (· != '.') with
  | _ :: fraction =>
    if !fraction.isEmpty && fraction.all (· == '0') then cs.takeWhile (· != '.') else cs
  | [] => cs

/-- The text without underscores, if each stands alone between other characters. -/
def dropUnderscores? (cs : List Char) : Option (List Char) :=
  let doubled := (cs.zip (cs.drop 1)).any fun p => p.1 == '_' && p.2 == '_'
  if cs.head? == some '_' || cs.getLast? == some '_' || doubled then none
  else some (cs.filter (· != '_'))

/-- The text behind a plus sign, which no minus sign may follow. -/
def dropPlus? : List Char → Option (List Char)
  | '+' :: '-' :: _ => none
  | '+' :: cs => some cs
  | cs => some cs

/-- The strict form that a loose one stands for, if it has the shape of one. -/
def strictForm? (cs : List Char) : Option (List Char) := do
  let signed ← dropPlus? (trim cs)
  let (negative, body) := splitMinus signed
  let body := dropZeroFraction (← dropZeros? body)
  let digits := (dropUnderscores? body).getD body
  return if negative then '-' :: digits else digits

/-- The integer that a text writes. -/
def read (s : String) : Except Refusal Int :=
  match strict s.toList with
  | .ok n => .ok n
  | .error .tooLong => .error .tooLong
  | .error .unclear =>
    match (strictForm? s.toList).map strict with
    | some (.ok n) => .ok n
    | _ => .error .unclear

@[simp] theorem strict_zero : strict ['0'] = .ok 0 := rfl

end LinterSuite.IntegerText
