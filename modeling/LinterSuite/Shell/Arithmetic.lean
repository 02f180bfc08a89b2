/-!
# Arithmetic of shell scripts

Expressions over integers, with the operators of C and their precedence. A name stands for the
number that its variable holds, zero if it holds none.

## Main definitions

* `Shell.ArithToken`: numbers, names and operators
* `Shell.arithTokens`: the tokens of an expression
* `Shell.arithmetic?`: the value of an expression
-/

namespace LinterSuite.Shell

/-- A token of an expression. -/
inductive ArithToken where
  | number (n : Int)
  | operator (s : String)
  deriving DecidableEq, Repr

/-- The operators, longer ones first. -/
def arithOperators : List String :=
  ["<=", ">=", "==", "!=", "&&", "||", "+", "-", "*", "/", "%", "<", ">", "!", "(", ")"]

/-- The tokens of the rest of an expression. The fuel bounds their number. -/
def arithTokensFrom? (value : String → Int) : (fuel : Nat) → List Char → Option (List ArithToken)
  | 0, _ => none
  | fuel + 1, cs =>
    match cs with
    | [] => some []
    | c :: rest =>
      if c = ' ' ∨ c = '\t' ∨ c = '\n' then arithTokensFrom? value fuel rest
      else if c.isDigit then
        let digits := cs.takeWhile Char.isDigit
        let n : Nat := digits.foldl (fun n d => 10 * n + (d.toNat - '0'.toNat)) 0
        (arithTokensFrom? value fuel (cs.drop digits.length)).map (.number n :: ·)
      else if c.isAlpha || c == '_' then
        let name := cs.takeWhile fun c => c.isAlphanum || c == '_'
        (arithTokensFrom? value fuel (cs.drop name.length)).map
          (.number (value (String.ofList name)) :: ·)
      else do
        let o ← arithOperators.find? fun o => o.toList.isPrefixOf cs
        return .operator o :: (← arithTokensFrom? value fuel (cs.drop o.length))

/-- How tightly an operator with two sides binds. -/
def precedence? : String → Option Nat
  | "||" => some 1
  | "&&" => some 2
  | "==" | "!=" => some 3
  | "<" | ">" | "<=" | ">=" => some 4
  | "+" | "-" => some 5
  | "*" | "/" | "%" => some 6
  | _ => none

/-- The number of a truth value. -/
def truth (b : Bool) : Int := if b then 1 else 0

/-- The value of an operator with two sides; nothing can be divided by zero. -/
def operate? (operator : String) (a b : Int) : Option Int :=
  match operator with
  | "||" => some (truth (a != 0 || b != 0))
  | "&&" => some (truth (a != 0 && b != 0))
  | "==" => some (truth (a == b))
  | "!=" => some (truth (a != b))
  | "<" => some (truth (decide (a < b)))
  | ">" => some (truth (decide (b < a)))
  | "<=" => some (truth (decide (a ≤ b)))
  | ">=" => some (truth (decide (b ≤ a)))
  | "+" => some (a + b)
  | "-" => some (a - b)
  | "*" => some (a * b)
  | "/" => if b = 0 then none else some (a.tdiv b)
  | "%" => if b = 0 then none else some (a.tmod b)
  | _ => none

mutual

/-- An operand and the tokens behind it. The fuel bounds the depth and the length. -/
def operand? : (fuel : Nat) → List ArithToken → Option (Int × List ArithToken)
  | 0, _ => none
  | fuel + 1, ts =>
    match ts with
    | .number n :: rest => some (n, rest)
    | .operator "(" :: rest => do
      let (n, rest) ← operations? fuel 0 rest
      match rest with
      | .operator ")" :: rest => some (n, rest)
      | _ => none
    | .operator "-" :: rest => (operand? fuel rest).map fun r => (-r.1, r.2)
    | .operator "+" :: rest => operand? fuel rest
    | .operator "!" :: rest => (operand? fuel rest).map fun r => (truth (r.1 == 0), r.2)
    | _ => none

/-- Operations that bind tighter than a level, and the tokens behind them. -/
def operations? : (fuel : Nat) → (level : Nat) → List ArithToken → Option (Int × List ArithToken)
  | 0, _, _ => none
  | fuel + 1, level, ts => do
    let (first, rest) ← operand? fuel ts
    operationsFrom? fuel level first rest

/-- The same behind a first operand. -/
def operationsFrom? : (fuel : Nat) → (level : Nat) → Int → List ArithToken →
    Option (Int × List ArithToken)
  | 0, _, _, _ => none
  | fuel + 1, level, first, ts =>
    match ts with
    | .operator o :: rest =>
      match precedence? o with
      | none => some (first, ts)
      | some p =>
        if p ≤ level then some (first, ts)
        else do
          let (next, rest) ← operations? fuel p rest
          operationsFrom? fuel level (← operate? o first next) rest
    | ts => some (first, ts)

end

/-- The value of an expression. -/
def arithmetic? (value : String → Int) (cs : List Char) : Option Int := do
  match ← arithTokensFrom? value (cs.length + 1) cs with
  | [] => some 0
  | ts =>
    let (n, rest) ← operations? (4 * ts.length + 4) 0 ts
    if rest.isEmpty then some n else none

end LinterSuite.Shell
