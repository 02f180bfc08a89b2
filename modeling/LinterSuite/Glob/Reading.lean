import LinterSuite.Glob.Group
import LinterSuite.Glob.Times

/-!
# Reading expressions

An expression is read from signs, from the first to the last. A bracket among them opens a class
that swallows all signs up to the bracket that closes it, as they are written; an opening
parenthesis with a question mark has a head, which swallows signs in the same way.

## Main definitions

* `Level`: what was read of a group that is still open
* `Progress`: what was read of an expression
* `Progress.take`: the effect of an unquoted character
* `Expression.ofSigns`: the expression of some signs

## Main results

* `Progress.weight_of_take`: every character leaves less to read
* `Progress.read_parts`: finished parts alone stay as they are
-/

namespace LinterSuite

/-- What was read of a group that is still open. -/
structure Level where
  kind : GroupKind
  /-- What the signs in it mean. -/
  mode : Mode
  /-- The alternatives that are complete. -/
  alternatives : Option Expression
  /-- The parts of the last alternative, the last one first. -/
  parts : List Part

namespace Level

/-- A group of which nothing was read. -/
def fresh (kind : GroupKind) (mode : Mode) : Level := ⟨kind, mode, none, []⟩

/-- The group with another part. -/
def push (l : Level) (p : Part) : Level := { l with parts := p :: l.parts }

/-- The last alternative. -/
def last (l : Level) : Expression := Expression.sequence (l.parts.reverse.map (·.expression))

/-- What was read of the group. -/
def content (l : Level) : Expression :=
  match l.alternatives with
  | none => l.last
  | some e => .either e l.last

/-- The group with a new alternative; behind a condition there are two at most. -/
def choose? (l : Level) : Option Level :=
  match l.kind, l.alternatives with
  | .whether _, some _ => none
  | _, _ => some { l with alternatives := some l.content, parts := [] }

/-- The expression of the group, closed, and what is known about the groups then. -/
def close (l : Level) (groups : Groups) : Expression × Groups :=
  match l.kind with
  | .plain => (l.content, groups)
  | .numbered n =>
    (.group n l.content,
      { groups with widths := (n, l.content.width groups.widths) :: groups.widths })
  | .preferred => (.preferred l.content, groups)
  | .ahead wanted => (.ahead wanted l.content, groups)
  | .behind wanted outermost =>
    let width := (l.content.width groups.widths).fixed?
    (.behind wanted (width.getD 0) l.content,
      { groups with
        settled := if outermost then none else groups.settled
        loose := groups.loose || width.isNone })
  | .whether n =>
    match l.alternatives with
    | none => (.whether n l.content .nothing, groups)
    | some taken => (.whether n taken l.last, groups)

/-- The group with its last part repeated. -/
def repeatLast? (l : Level) (t : Times) (manner : Manner) : Option Level :=
  match l.parts with
  | [] => none
  | p :: ps =>
    if p.repeatable && t.isProper then
      some { l with parts := ⟨.repeated p.expression t.least t.most manner, false⟩ :: ps }
    else none

end Level

/-- What was read of an expression. -/
structure Progress where
  /-- The open groups around the innermost one, from the inside to the outside. -/
  outer : List Level
  innermost : Level
  groups : Groups

namespace Progress

/-- Nothing was read. -/
def start : Progress := ⟨[], .fresh .plain .standard, .none⟩

/-- What was read, with another part. -/
def push (p : Progress) (part : Part) : Progress := { p with innermost := p.innermost.push part }

/-- What was read, with another open group. -/
def enter (p : Progress) (kind : GroupKind) (mode : Mode) (groups : Groups) : Progress :=
  ⟨p.innermost :: p.outer, .fresh kind mode, groups⟩

/-- What was read, with the innermost group closed. -/
def leave? (p : Progress) : Option Progress :=
  match p.outer with
  | [] => none
  | o :: outer =>
    let (e, groups) := p.innermost.close p.groups
    some ⟨outer, o.push ⟨e, true⟩, groups⟩

/-- What was read, if nothing is missing. -/
def expression? (p : Progress) : Option Expression :=
  if p.outer.isEmpty && p.groups.isComplete then some p.innermost.content else none

/-- The effect of an opening parenthesis. -/
def takeOpening? (p : Progress) (rest : List Sign) : Option (Progress × List Sign) :=
  let mode := p.innermost.mode
  if Sign.startsWith '?' rest then do
    let (head, groups, ms) ← Head.ofMarks? mode p.groups (rest.tail.flatMap Sign.marks)
    let further := match head with
      | .group kind mode => p.enter kind mode groups
      | .remark => p
      | .sameAs n => p.push ⟨.again mode.casing n, true⟩
    return (further, Sign.ofMarks ms)
  else
    let (n, groups) := p.groups.next
    some (p.enter (.numbered n) mode groups, rest)

/-- The effect of an opening bracket. -/
def takeClass? (p : Progress) (rest : List Sign) : Option (Progress × List Sign) :=
  (CharClass.ofMarks? (rest.flatMap Sign.marks)).map fun (k, ms) =>
    (p.push (.one (p.innermost.mode.listed k)), Sign.ofMarks ms)

/-- The effect of the sign for a repetition. -/
def takeTimes? (p : Progress) (t : Times) (rest : List Sign) : Option (Progress × List Sign) :=
  (p.innermost.repeatLast? t (Manner.ofSigns rest).1).map fun l =>
    ({ p with innermost := l }, (Manner.ofSigns rest).2)

/-- The blanks that mean nothing where signs are spaced. -/
def isSpace (c : Char) : Bool := c == ' ' || (0x09 ≤ c.toNat && c.toNat ≤ 0x0D)

/-- What stands behind the end of the line, if there is one. -/
def skipLine (rest : List Sign) : List Sign :=
  match Mark.splitAt? '\n' (rest.flatMap Sign.marks) with
  | none => []
  | some (_, ms) => Sign.ofMarks ms

/-- The effect of an unquoted character that has a meaning. -/
def takeSpecial (p : Progress) (c : Char) (rest : List Sign) :
    Except GlobError (Progress × List Sign) :=
  let mode := p.innermost.mode
  match c with
  | '|' => GlobError.require (p.innermost.choose?.map fun l => ({ p with innermost := l }, rest))
  | '(' => GlobError.require (p.takeOpening? rest)
  | ')' => GlobError.require (p.leave?.map fun p => (p, rest))
  | '[' => GlobError.require (p.takeClass? rest)
  | '.' => .ok (p.push (.one mode.point), rest)
  | '^' => .ok (p.push ⟨.atStart mode.eachLine, false⟩, rest)
  | '$' => .ok (p.push ⟨.atEnd mode.eachLine, false⟩, rest)
  | c =>
    match Times.ofSign c rest with
    | .error e => .error e
    | .ok none => .ok (p.push (.one (mode.literal c)), rest)
    | .ok (some (t, rest)) => GlobError.require (p.takeTimes? t rest)

/-- The effect of an unquoted character in front of some signs. -/
def take (p : Progress) (c : Char) (rest : List Sign) : Except GlobError (Progress × List Sign) :=
  if p.innermost.mode.spaced && isSpace c then .ok (p, rest)
  else if p.innermost.mode.spaced && c == '#' then .ok (p, skipLine rest)
  else p.takeSpecial c rest

theorem weight_of_takeOpening? {p p' : Progress} {signs rest : List Sign}
    (h : p.takeOpening? signs = some (p', rest)) : Sign.weight rest ≤ Sign.weight signs := by
  unfold takeOpening? at h
  simp only at h
  split at h
  · obtain ⟨⟨head, groups, ms⟩, hh, h⟩ := Option.bind_eq_some_iff.1 h
    cases h
    exact Nat.le_trans (Sign.weight_ofMarks_le (Head.length_of_ofMarks? hh))
      (Sign.weight_tail_le signs)
  · cases h; exact Nat.le_refl _

theorem weight_of_takeClass? {p p' : Progress} {signs rest : List Sign}
    (h : p.takeClass? signs = some (p', rest)) : Sign.weight rest ≤ Sign.weight signs := by
  obtain ⟨⟨k, ms⟩, hk, h⟩ := Option.map_eq_some_iff.1 h
  cases h
  exact Sign.weight_ofMarks_le (Nat.le_of_lt (CharClass.length_of_ofMarks? hk))

theorem weight_of_takeTimes? {p p' : Progress} {t : Times} {signs rest : List Sign}
    (h : p.takeTimes? t signs = some (p', rest)) : Sign.weight rest ≤ Sign.weight signs := by
  obtain ⟨l, _, h⟩ := Option.map_eq_some_iff.1 h
  cases h
  exact Manner.weight_ofSigns_le signs

theorem weight_skipLine_le (signs : List Sign) :
    Sign.weight (skipLine signs) ≤ Sign.weight signs := by
  unfold skipLine
  split
  · simp [Sign.weight]
  · next hs => exact Sign.weight_ofMarks_le (Mark.length_of_splitAt? hs)

theorem weight_of_takeSpecial {p p' : Progress} {c : Char} {signs rest : List Sign}
    (h : p.takeSpecial c signs = .ok (p', rest)) : Sign.weight rest ≤ Sign.weight signs := by
  unfold takeSpecial at h
  simp only at h
  split at h
  · obtain ⟨l, _, h⟩ := Option.map_eq_some_iff.1 (GlobError.require_eq_ok h)
    cases h; exact Nat.le_refl _
  · exact weight_of_takeOpening? (GlobError.require_eq_ok h)
  · obtain ⟨l, _, h⟩ := Option.map_eq_some_iff.1 (GlobError.require_eq_ok h)
    cases h; exact Nat.le_refl _
  · exact weight_of_takeClass? (GlobError.require_eq_ok h)
  · cases h; exact Nat.le_refl _
  · cases h; exact Nat.le_refl _
  · cases h; exact Nat.le_refl _
  · split at h
    · simp at h
    · cases h; exact Nat.le_refl _
    · next ht =>
      exact Nat.le_trans (weight_of_takeTimes? (GlobError.require_eq_ok h))
        (Times.weight_of_ofSign ht)

theorem weight_of_take {p p' : Progress} {c : Char} {signs rest : List Sign}
    (h : p.take c signs = .ok (p', rest)) : Sign.weight rest ≤ Sign.weight signs := by
  unfold take at h
  split at h
  · cases h; exact Nat.le_refl _
  split at h
  · cases h; exact weight_skipLine_le signs
  · exact weight_of_takeSpecial h

/-- The expression of some signs, behind what was read before. A finished part is taken apart where
its signs do not have their standard meaning. -/
def read (p : Progress) (signs : List Sign) : Except GlobError Expression :=
  match signs with
  | [] => GlobError.require p.expression?
  | .part part written :: rest =>
    have : Sign.weight (Sign.ofMarks written ++ rest) = 2 * written.length + Sign.weight rest := by
      rw [Sign.weight_append, Sign.weight_ofMarks]
    if p.innermost.mode = .standard then read (p.push part) rest
    else read p (Sign.ofMarks written ++ rest)
  | .mark m :: rest =>
    if m.quoted then read (p.push (.one (p.innermost.mode.literal m.char))) rest
    else match h : p.take m.char rest with
      | .error e => .error e
      | .ok (p, rest) =>
        have := weight_of_take h
        read p rest
termination_by Sign.weight signs
decreasing_by all_goals simp only [Sign.weight]; omega

theorem read_parts (l : Level) (h : l.mode = .standard) (parts : List (Part × List Mark)) :
    read ⟨[], l, .none⟩ (parts.map fun p => .part p.1 p.2) =
      .ok { l with parts := (parts.map Prod.fst).reverse ++ l.parts }.content := by
  induction parts generalizing l with
  | nil => simp [read, expression?, Groups.isComplete, Groups.none, GlobError.require]
  | cons p parts ih =>
    have tail := ih { l with parts := p.1 :: l.parts } h
    rw [List.map_cons, read, if_pos h, push, Level.push, tail]
    simp

end Progress

/-- The expression of some signs. -/
def Expression.ofSigns (signs : List Sign) : Except GlobError Expression :=
  Progress.start.read signs

end LinterSuite
