/-!
# Patterns of the shell

A pattern is matched with a whole text: a star stands for any characters, a question mark for one,
and brackets for one of several. A quoted character stands for itself.

## Main definitions

* `Shell.PatternChar`: a character of a pattern, perhaps quoted
* `Shell.isPattern`: whether any character is special
* `Shell.matchesPattern`: whether a text matches
-/

namespace LinterSuite.Shell

/-- A character and whether it is quoted. -/
abbrev PatternChar := Char × Bool

/-- Some character is special. -/
def isPattern (p : List PatternChar) : Bool :=
  p.any fun c => !c.2 && (c.1 == '*' || c.1 == '?' || c.1 == '[')

/-- The characters between brackets, and the pattern behind them; a closing bracket in front is one
of them. -/
def bracketed? : (first : Bool) → List PatternChar → Option (List PatternChar × List PatternChar)
  | _, [] => none
  | first, (c, quoted) :: rest =>
    if c = ']' ∧ !quoted ∧ !first then some ([], rest)
    else (bracketed? false rest).map fun r => ((c, quoted) :: r.1, r.2)

/-- A character is one of those in brackets, which may be ranges. -/
def inBrackets (x : Char) : List PatternChar → Bool
  | (a, _) :: ('-', false) :: (b, _) :: rest => (a ≤ x && x ≤ b) || inBrackets x rest
  | (a, _) :: rest => a == x || inBrackets x rest
  | [] => false

/-- A character matches brackets, which a sign in front inverts. -/
def bracketAdmits (x : Char) : List PatternChar → Bool
  | ('!', false) :: body => !inBrackets x body
  | ('^', false) :: body => !inBrackets x body
  | body => inBrackets x body

/-- The fuel bounds the work of a match. -/
def matchesFrom : (fuel : Nat) → List PatternChar → List Char → Bool
  | 0, _, _ => false
  | _ + 1, [], text => text.isEmpty
  | fuel + 1, ('*', false) :: p, text =>
    matchesFrom fuel p text || match text with
      | _ :: rest => matchesFrom fuel (('*', false) :: p) rest
      | [] => false
  | fuel + 1, ('?', false) :: p, _ :: rest => matchesFrom fuel p rest
  | fuel + 1, ('[', false) :: p, x :: rest =>
    match bracketed? (p.head?.all fun c => c.1 == ']') p with
    | some (body, p) => bracketAdmits x body && matchesFrom fuel p rest
    | none => x == '[' && matchesFrom fuel p rest
  | fuel + 1, (c, _) :: p, x :: rest => c == x && matchesFrom fuel p rest
  | _ + 1, _ :: _, [] => false

/-- A text matches a pattern as a whole. -/
def matchesPattern (p : List PatternChar) (text : List Char) : Bool :=
  matchesFrom (p.length + text.length + 1) p text

end LinterSuite.Shell
