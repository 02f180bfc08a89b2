import LinterSuite.Glob.CharClass
import LinterSuite.Text.LetterCase

/-!
# Expressions

What a pattern says about a path is an expression: characters, one after the other, either one or
another, and any number of times. An expression may also ask what stands around a place, and refer
to what one of its groups has taken.

## Main definitions

* `Single`, `Expression`: one character of a kind, and expressions of them
* `Width`, `Expression.width`: how many characters an expression may take
* `Expression.directories`: any number of whole components

## Main results

* `Width.fixed?_one`: one character is one character wide
-/

namespace LinterSuite

/-- The separator of path components. -/
def separator : Char := '/'

/-- What may stand in one place of a path. -/
inductive Single where
  | char (c : Char)
  /-- Any character but the separator. -/
  | inComponent
  /-- Any character. -/
  | any
  /-- Any character but a line feed. -/
  | inLine
  | oneOf (chars : CharClass)
  /-- A character, or what counts as the same letter. -/
  | letter (casing : Casing) (c : Char)
  /-- A character of a class, where letters that count as the same are all members. -/
  | letterOf (casing : Casing) (chars : CharClass)
  deriving DecidableEq, Repr

/-- The characters that may stand in one place. -/
def Single.admits : Single → Char → Bool
  | char c, d => d == c
  | inComponent, d => d != separator
  | any, _ => true
  | inLine, d => d != '\n'
  | oneOf chars, d => chars.contains d
  | letter casing c, d => (casing.variants d).contains c
  | letterOf casing chars, d =>
    (casing.variants d).any (CharClass.inRanges chars.ranges) != chars.negated

/-- How a repetition goes about its work. -/
inductive Manner where
  /-- It takes as much as it can, and gives back what is needed behind it. -/
  | greedy
  /-- It takes as little as it must, and more if that is needed behind it. -/
  | lazy
  /-- It takes as much as it can, and gives nothing back. -/
  | possessive
  deriving DecidableEq, Repr

/-- What may stand in a stretch of a path. -/
inductive Expression where
  /-- No character. -/
  | nothing
  | one (s : Single)
  /-- No character, at the start of the path, or on request of a line. -/
  | atStart (ofLine : Bool)
  /-- No character, at the end of the path or in front of a line feed that ends it; or on request at
  the end of a line. -/
  | atEnd (ofLine : Bool)
  | both (first second : Expression)
  | either (first second : Expression)
  /-- From `least` to `most` times; no `most` is no upper limit. -/
  | repeated (e : Expression) (least : Nat) (most : Option Nat) (manner : Manner)
  /-- What is preferred, and nothing else. -/
  | preferred (e : Expression)
  /-- No character, where an expression could take some from here, or where it could not. -/
  | ahead (wanted : Bool) (e : Expression)
  /-- No character, where an expression could take some from so many characters before, or where it
  could not. -/
  | behind (wanted : Bool) (width : Nat) (e : Expression)
  /-- What the group of a number takes. -/
  | group (number : Nat) (e : Expression)
  /-- What the group of a number has taken, once more. -/
  | again (casing : Casing) (number : Nat)
  /-- One or the other, as the group of a number has taken something or not. -/
  | whether (number : Nat) (taken missing : Expression)
  deriving DecidableEq, Repr

/-- How many characters something may take. -/
structure Width where
  least : Nat
  /-- Nothing if there is no upper limit. -/
  most : Option Nat
  deriving DecidableEq, Repr

namespace Width

/-- The width of so many characters. -/
def exactly (n : Nat) : Width := ⟨n, some n⟩

/-- The width of two things one after the other. -/
def and (v w : Width) : Width :=
  ⟨v.least + w.least, do return (← v.most) + (← w.most)⟩

/-- The width of one thing or another. -/
def or (v w : Width) : Width :=
  ⟨min v.least w.least, do return max (← v.most) (← w.most)⟩

/-- The width of something that is repeated. -/
def times (w : Width) (least : Nat) (most : Option Nat) : Width :=
  ⟨w.least * least,
    if w.most = some 0 ∨ most = some 0 then some 0 else do return (← w.most) * (← most)⟩

/-- The greatest exact width. -/
def limit : Nat := Nat.pow 2 32 - 1

/-- The number of characters if there is no choice and there are not too many. -/
def fixed? (w : Width) : Option Nat :=
  if w.most = some w.least ∧ w.least ≤ limit then some w.least else none

@[simp] theorem fixed?_one : (exactly 1).fixed? = some 1 := by decide

end Width

namespace Expression

/-- Some expressions one after the other. -/
def sequence : List Expression → Expression
  | [] => nothing
  | e :: es => both e (sequence es)

/-- How many characters an expression may take, given the widths of the groups that it refers to. -/
def width (groups : List (Nat × Width)) : Expression → Width
  | nothing | atStart _ | atEnd _ | ahead .. | behind .. => .exactly 0
  | one _ => .exactly 1
  | both a b => (a.width groups).and (b.width groups)
  | either a b => (a.width groups).or (b.width groups)
  | repeated e least most _ => (e.width groups).times least most
  | preferred e | group _ e => e.width groups
  | again _ number => (groups.lookup number).getD (.exactly 0)
  | whether _ taken missing => (taken.width groups).or (missing.width groups)

/-- Characters of one component, as many as one likes. -/
def inComponent : Expression := repeated (one .inComponent) 0 none .greedy

/-- Any characters at all. -/
def anything : Expression := repeated (one .any) 0 none .greedy

/-- Any number of whole components, each with the separator behind it. -/
def directories : Expression :=
  repeated (both (repeated (one .inComponent) 1 none .greedy) (one (.char separator))) 0 none
    .greedy

end Expression

end LinterSuite
