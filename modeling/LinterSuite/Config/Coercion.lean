import LinterSuite.Config.Value
import LinterSuite.Number.IntegerText

/-!
# Reading settings from values

A setting has a type, and a value of another type counts if it plainly says the same: the number
one for true, the text of a number for the number, a whole float for an integer.

## Main definitions

* `Problem`: why a value does not fit a setting
* `Value.toText`, `Value.toBoolean`, `Value.toInteger`, `Value.toNumber`: the readings
* `Value.toTexts`: a list of texts, with the problems of its items
-/

namespace LinterSuite

/-- Why a value does not fit a setting. -/
inductive Problem where
  | missing
  | unexpected
  | notText
  | notList
  | notBoolean
  /-- It has a type that could be a truth value, but does not say which. -/
  | unclearBoolean
  | notInteger
  | unclearInteger
  | fractional
  | tooLarge
  | notFinite
  | notNumber
  | unclearNumber
  | notPositive
  | belowOne
  | emptyCommand
  deriving DecidableEq, Repr

/-- The report of a problem. -/
def Problem.message : Problem → String
  | missing => "Field required"
  | unexpected => "Extra inputs are not permitted"
  | notText => "Input should be a valid string"
  | notList => "Input should be a valid list"
  | notBoolean => "Input should be a valid boolean"
  | unclearBoolean => "Input should be a valid boolean, unable to interpret input"
  | notInteger => "Input should be a valid integer"
  | unclearInteger => "Input should be a valid integer, unable to parse string as an integer"
  | fractional => "Input should be a valid integer, got a number with a fractional part"
  | tooLarge => "Unable to parse input string as an integer, exceeded maximum size"
  | notFinite => "Input should be a finite number"
  | notNumber => "Input should be a valid number"
  | unclearNumber => "Input should be a valid number, unable to parse string as a number"
  | notPositive => "Input should be greater than 0"
  | belowOne => "Input should be greater than or equal to 1"
  | emptyCommand => "Value error, command must not be empty"

namespace Value

/-- The texts that say false, in lower case. -/
def falseWords : List String := ["0", "off", "f", "false", "n", "no"]

/-- The texts that say true, in lower case. -/
def trueWords : List String := ["1", "on", "t", "true", "y", "yes"]

/-- The truth value that a text says in any case. -/
def booleanWord? (s : String) : Option Bool :=
  let word := String.ofList (s.toList.map Char.toLower)
  if falseWords.contains word then some false
  else if trueWords.contains word then some true
  else none

/-- The integers that a machine word holds. -/
def isWord (n : Int) : Bool := decide (-(Int.pow 2 63) ≤ n ∧ n < Int.pow 2 63)

/-- A float that is a whole number well inside a machine word. -/
def wholeFloat (x : Binary64) : Except Problem Int :=
  if !x.isFinite then .error .notFinite
  else match x.integer? with
    | none => .error .fractional
    | some n => if -(Int.pow 2 63) < n ∧ n < Int.pow 2 63 then .ok n else .error .tooLarge

/-- The truth value of an integer. -/
def booleanOfInteger (n : Int) : Except Problem Bool :=
  if n = 0 then .ok false else if n = 1 then .ok true else .error .unclearBoolean

/-- The truth value that a value says. -/
def toBoolean : Value → Except Problem Bool
  | .boolean b => .ok b
  | .string s => (booleanWord? s).elim (.error .unclearBoolean) .ok
  | .integer n =>
    if isWord n then booleanOfInteger n else .error .notBoolean
  | .float x => match wholeFloat x with
    | .ok n => booleanOfInteger n
    | .error _ => .error .notBoolean
  | _ => .error .notBoolean

/-- The text of a value, which must be one. -/
def toText : Value → Except Problem String
  | .string s => .ok s
  | _ => .error .notText

/-- The integer that a value says. -/
def toInteger : Value → Except Problem Int
  | .integer n => .ok n
  | .boolean b => .ok (if b then 1 else 0)
  | .float x => wholeFloat x
  | .string s =>
    (IntegerText.read s).mapError fun
      | .unclear => .unclearInteger
      | .tooLong => .tooLarge
  | _ => .error .notInteger

/-- The number that a text writes, with white space around it or with underscores, but not both. -/
def numberText? (s : String) : Option Binary64 :=
  (Binary64.ofText? (String.ofList (IntegerText.trim s.toList))).or
    ((IntegerText.dropUnderscores? s.toList).bind fun cs => Binary64.ofText? (String.ofList cs))

/-- The number that a value says. -/
def toNumber : Value → Except Problem Binary64
  | .float x => .ok x
  | .integer n =>
    let x := Binary64.ofInt n
    if x.isFinite then .ok x else .error .notNumber
  | .boolean b => .ok (Binary64.ofInt (if b then 1 else 0))
  | .string s => (numberText? s).elim (.error .unclearNumber) .ok
  | _ => .error .notNumber

end Value

end LinterSuite
