import LinterSuite.Glob.Expression

/-!
# Scanning a text

An expression takes characters from a place of a text on. Where there is a choice it has an order of
preference, and it goes back to the next choice if what follows cannot be satisfied.

## Main definitions

* `Scan`: a place in a text, with what the groups have taken on the way
* `Expression.first`: the first way for an expression and what follows it
* `Expression.describes`: an expression that takes a whole text

## Main results

* `Expression.first_both`: what follows the first of two expressions is the second
* `Expression.describes_one`: one character describes the texts of one such character
-/

namespace LinterSuite

/-- Where a group started last, and where it ended last, in characters from the start of the
text. -/
structure GroupMark where
  start : Nat
  stop : Option Nat
  deriving DecidableEq, Repr

/-- A place in a text, with what the groups have taken on the way. -/
structure Scan where
  /-- The characters before the place, the last one first. -/
  before : List Char
  rest : List Char
  /-- The groups by their numbers, the latest marks first. -/
  marks : List (Nat × GroupMark)
  deriving DecidableEq, Repr

namespace Scan

/-- The start of a text. -/
def start (cs : List Char) : Scan := ⟨[], cs, []⟩

/-- The place behind one character that is admitted. -/
def step? (admits : Char → Bool) (s : Scan) : Option Scan :=
  match s.rest with
  | [] => none
  | c :: cs => if admits c then some { s with before := c :: s.before, rest := cs } else none

/-- The places behind admitted characters, at most so many of them, the farthest first; `reached`
are the places up to here. -/
def reach (admits : Char → Bool) (marks : List (Nat × GroupMark)) :
    (most : Option Nat) → (reached : List Scan) → (before rest : List Char) → List Scan
  | _, reached, _, [] => reached
  | most, reached, before, c :: cs =>
    if most = some 0 || !admits c then reached
    else
      let next := ⟨c :: before, cs, marks⟩
      reach admits marks (most.map (· - 1)) (next :: reached) (c :: before) cs

/-- The places behind at least and at most so many admitted characters, the farthest first. -/
def run (admits : Char → Bool) (least : Nat) (most : Option Nat) (s : Scan) : List Scan :=
  let places := reach admits s.marks most [s] s.before s.rest
  places.take (places.length - least)

/-- The place so many characters back. -/
def back? (n : Nat) (s : Scan) : Option Scan :=
  if n ≤ s.before.length then
    some { s with before := s.before.drop n, rest := (s.before.take n).reverse ++ s.rest }
  else none

/-- The start of the text, or on request of a line. -/
def isAtStart (ofLine : Bool) (s : Scan) : Bool :=
  match s.before with
  | [] => true
  | c :: _ => ofLine && c == '\n'

/-- The end of the text, in front of a line feed or not; or on request the end of a line. -/
def isAtEnd (ofLine : Bool) (s : Scan) : Bool :=
  match s.rest with
  | [] => true
  | c :: cs => c == '\n' && (ofLine || cs.isEmpty)

/-- The place with a group started. -/
def openGroup (number : Nat) (s : Scan) : Scan :=
  let stop := (s.marks.lookup number).bind (·.stop)
  { s with marks := (number, ⟨s.before.length, stop⟩) :: s.marks }

/-- The place with a group ended. -/
def closeGroup (number : Nat) (s : Scan) : Scan :=
  let start := ((s.marks.lookup number).map (·.start)).getD 0
  { s with marks := (number, ⟨start, some s.before.length⟩) :: s.marks }

/-- What a group has taken. A group that was started again behind its last end has taken nothing. -/
def taken? (number : Nat) (s : Scan) : Option (List Char) := do
  let mark ← s.marks.lookup number
  let stop ← mark.stop
  if mark.start ≤ stop then
    some (((s.before.reverse ++ s.rest).drop mark.start).take (stop - mark.start))
  else none

/-- The place behind given characters. -/
def follow? (casing : Casing) : List Char → Scan → Option Scan
  | [], s => some s
  | c :: cs, s => (s.step? fun d => casing.lower d == casing.lower c).bind (follow? casing cs)

end Scan

/-- What follows an expression: the end of the way from a place, if there is one. -/
abbrev Onward := Scan → Option Scan

namespace Expression

/-- The first way for something that is taken over and over. Once it was taken often enough, taking
nothing ends the repetition. -/
def repeatFirst (take : Scan → Onward → Option Scan) (isLazy : Bool) :
    (fuel least : Nat) → (most : Option Nat) → Scan → Onward → Option Scan
  | 0, _, _, _, _ => none
  | fuel + 1, least, most, s, onward =>
    if most = some 0 then onward s
    else
      let further (_ : Unit) := take s fun t =>
        if least = 0 ∧ t.rest.length = s.rest.length then onward t
        else repeatFirst take isLazy fuel (least - 1) (most.map (· - 1)) t onward
      if least ≠ 0 then further ()
      else if isLazy then onward s <|> further ()
      else further () <|> onward s

/-- The place behind something that is taken over and over, as often as it can be, each time in the
preferred way. -/
def takeAll (take : Scan → Onward → Option Scan) :
    (fuel least : Nat) → (most : Option Nat) → Scan → Option Scan
  | 0, _, _, _ => none
  | fuel + 1, least, most, s =>
    if most = some 0 then some s
    else match take s some with
      | none => if least = 0 then some s else none
      | some t =>
        if least = 0 ∧ t.rest.length = s.rest.length then some t
        else takeAll take fuel (least - 1) (most.map (· - 1)) t

/-- How many times something can be repeated from a place, so that each time counts. -/
def repetitions (least : Nat) (s : Scan) : Nat := least + s.rest.length + 2

/-- The first way for an expression from a place, and for what follows it. -/
def first : Expression → Scan → Onward → Option Scan
  | nothing, s, onward => onward s
  | one c, s, onward => (s.step? c.admits).bind onward
  | atStart ofLine, s, onward => if s.isAtStart ofLine then onward s else none
  | atEnd ofLine, s, onward => if s.isAtEnd ofLine then onward s else none
  | both a b, s, onward => a.first s fun t => b.first t onward
  | either a b, s, onward => a.first s onward <|> b.first s onward
  | repeated (one c) least most .greedy, s, onward =>
    (s.run c.admits least most).findSome? onward
  | repeated (one c) least most .lazy, s, onward =>
    (s.run c.admits least most).reverse.findSome? onward
  | repeated (one c) least most .possessive, s, onward =>
    (s.run c.admits least most).head?.bind onward
  | repeated e least most .greedy, s, onward =>
    repeatFirst e.first false (repetitions least s) least most s onward
  | repeated e least most .lazy, s, onward =>
    repeatFirst e.first true (repetitions least s) least most s onward
  | repeated e least most .possessive, s, onward =>
    (takeAll e.first (repetitions least s) least most s).bind onward
  | preferred e, s, onward => (e.first s some).bind onward
  | ahead wanted e, s, onward =>
    match e.first s some with
    | some t => if wanted then onward { s with marks := t.marks } else none
    | none => if wanted then none else onward s
  | behind wanted width e, s, onward =>
    match (s.back? width).bind fun t => e.first t some with
    | some t => if wanted then onward { s with marks := t.marks } else none
    | none => if wanted then none else onward s
  | group number e, s, onward => e.first (s.openGroup number) fun t => onward (t.closeGroup number)
  | again casing number, s, onward =>
    ((s.taken? number).bind fun cs => s.follow? casing cs).bind onward
  | whether number a b, s, onward =>
    if (s.taken? number).isSome then a.first s onward else b.first s onward

/-- The end of a text, which no characters follow. -/
def atLast : Onward := fun s => if s.rest.isEmpty then some s else none

/-- The expression takes the whole text. -/
def describes (e : Expression) (cs : List Char) : Bool := (e.first (.start cs) atLast).isSome

theorem first_both (a b : Expression) (s : Scan) (onward : Onward) :
    (both a b).first s onward = a.first s fun t => b.first t onward := by
  simp [first]

theorem describes_one {c : Single} {cs : List Char} :
    (one c).describes cs = true ↔ ∃ d, cs = [d] ∧ c.admits d = true := by
  match cs with
  | [] => simp [describes, first, Scan.start, Scan.step?]
  | [d] => by_cases h : c.admits d <;> simp [describes, first, Scan.start, Scan.step?, atLast, h]
  | d :: e :: rest =>
    by_cases h : c.admits d <;> simp [describes, first, Scan.start, Scan.step?, atLast, h]

end Expression

end LinterSuite
