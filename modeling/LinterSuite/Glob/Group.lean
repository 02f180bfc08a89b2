import LinterSuite.Glob.Mode
import LinterSuite.Glob.Sign
import LinterSuite.Number.IntegerText
import LinterSuite.Text.DecimalDigit
import LinterSuite.Text.Identifier

/-!
# Groups

What stands between parentheses is a group. A group that has no head behind its opening parenthesis
is numbered, and what it takes can be asked for. A head may name the group, make it ask what stands
ahead or behind, make it depend on another group, or change the meaning of the signs in it. Some
heads are complete without a group: a remark, and the recall of what another group has taken.

## Main definitions

* `Groups`: what is known about the numbered groups
* `GroupKind`: what a group does with what it holds
* `Head`: what stands behind an opening parenthesis
* `Head.ofMarks?`: the head that some marks write behind a question mark

## Main results

* `Head.length_of_ofMarks?`: reading a head leaves no more marks
-/

namespace LinterSuite

/-- What is known about the numbered groups. -/
structure Groups where
  /-- How many were opened. -/
  count : Nat
  /-- The numbers of the named ones. -/
  names : List (List Char × Nat)
  /-- How many characters the closed ones may take. -/
  widths : List (Nat × Width)
  /-- How many were opened in front of the outermost group that looks behind, inside of one. -/
  settled : Option Nat
  /-- The greatest number that a condition asks for. -/
  asked : Nat
  /-- A group that looks behind may take more characters or fewer. -/
  loose : Bool

namespace Groups

/-- No group was opened. -/
def none : Groups :=
  { count := 0, names := [], widths := [], settled := .none, asked := 0, loose := false }

/-- The group of a number was closed. -/
def isClosed (g : Groups) (number : Nat) : Bool := (g.widths.lookup number).isSome

/-- What looks behind may refer to the group: it was closed, and opened before. -/
def isSettled (g : Groups) (number : Nat) : Bool :=
  g.settled.all fun limit => g.isClosed number && decide (number ≤ limit)

/-- Opens another group. -/
def next (g : Groups) : Nat × Groups := (g.count + 1, { g with count := g.count + 1 })

/-- Opens another group, with a name that no other has. -/
def named? (g : Groups) (name : List Char) : Option (Nat × Groups) :=
  if Text.isIdentifier name && (g.names.lookup name).isNone then
    some (g.count + 1, { g with count := g.count + 1, names := (name, g.count + 1) :: g.names })
  else .none

/-- The number that some characters write, in the digits of any script. -/
def number? (cs : List Char) : Option Nat := do
  let body := match IntegerText.trim cs with
    | '+' :: rest => rest
    | body => body
  let digits ← IntegerText.dropUnderscores? body
  let n := Text.decimalNumber digits
  if digits.all Text.isDecimalDigit && decide (digits.length ≤ Text.numeralLimit ∧ 0 < n) then
    return n
  else .none

/-- The group that a condition asks for, by its name or by its number; a group of that number may
come later. -/
def condition? (g : Groups) (word : List Char) : Option (Nat × Groups) :=
  let found := if Text.isIdentifier word then (g.names.lookup word).map fun n => (n, g)
    else (number? word).map fun n => (n, { g with asked := max g.asked n })
  found.filter fun p => g.isSettled p.1

/-- The group that a recall names. -/
def recalled? (g : Groups) (name : List Char) : Option Nat :=
  (g.names.lookup name).filter fun n => g.isClosed n && g.isSettled n

/-- All groups that conditions ask for exist, and what looks behind knows how far. -/
def isComplete (g : Groups) : Bool := decide (g.asked ≤ g.count) && !g.loose

end Groups

/-- What a group does with what it holds. -/
inductive GroupKind where
  | plain
  | numbered (number : Nat)
  | preferred
  | ahead (wanted : Bool)
  | behind (wanted outermost : Bool)
  | whether (number : Nat)
  deriving DecidableEq, Repr

/-- What stands behind an opening parenthesis. -/
inductive Head where
  /-- The start of a group, whose signs are read in a mode. -/
  | group (kind : GroupKind) (mode : Mode)
  /-- A remark, which means nothing. -/
  | remark
  /-- What a group has taken, once more. -/
  | sameAs (number : Nat)

namespace Head

/-- A head with a name behind the letter `P`: a name in angle brackets for the group, or the name of
another group. -/
def namedBy? (mode : Mode) (groups : Groups) (ms : List Mark) :
    Option (Head × Groups × List Mark) :=
  if ms.head? = some (.plain '<') then do
    let (written, rest) ← Mark.splitAt? '>' ms.tail
    let (number, groups) ← (Mark.text? written).bind groups.named?
    return (group (.numbered number) mode, groups, rest)
  else if ms.head? = some (.plain '=') then do
    let (written, rest) ← Mark.splitAt? ')' ms.tail
    let number ← (Mark.text? written).bind groups.recalled?
    return (sameAs number, groups, rest)
  else none

/-- A head that looks behind. -/
def behind? (mode : Mode) (groups : Groups) (ms : List Mark) : Option (Head × Groups × List Mark) :=
  let start (wanted : Bool) := (group (.behind wanted groups.settled.isNone) mode,
    { groups with settled := some (groups.settled.getD groups.count) }, ms.tail)
  if ms.head? = some (.plain '=') then some (start true)
  else if ms.head? = some (.plain '!') then some (start false)
  else none

/-- A head with a condition. -/
def condition? (mode : Mode) (groups : Groups) (ms : List Mark) :
    Option (Head × Groups × List Mark) := do
  let (written, rest) ← Mark.splitAt? ')' ms
  let (number, groups) ← (Mark.text? written).bind groups.condition?
  return (group (.whether number) mode, groups, rest)

/-- The head that some marks write behind a question mark, what is known about the groups then, and
the marks behind it. -/
def ofMarks? (mode : Mode) (groups : Groups) (ms : List Mark) :
    Option (Head × Groups × List Mark) :=
  let rest := ms.tail
  let start (kind : GroupKind) := some (group kind mode, groups, rest)
  match ms.head?.filter (!·.quoted) with
  | none => none
  | some m =>
    match m.char with
    | ':' => start .plain
    | '>' => start .preferred
    | '=' => start (.ahead true)
    | '!' => start (.ahead false)
    | '<' => behind? mode groups rest
    | 'P' => namedBy? mode groups rest
    | '(' => condition? mode groups rest
    | '#' => (Mark.splitAt? ')' rest).map fun (_, rest) => (remark, groups, rest)
    | _ => (mode.change? ms).map fun (mode, rest) => (group .plain mode, groups, rest)

theorem length_of_namedBy? {mode : Mode} {groups groups' : Groups} {ms rest : List Mark} {h : Head}
    (eq : namedBy? mode groups ms = some (h, groups', rest)) : rest.length ≤ ms.length := by
  have tail : ms.tail.length ≤ ms.length := by simp
  unfold namedBy? at eq
  split at eq
  · obtain ⟨⟨w, r⟩, hs, eq⟩ := Option.bind_eq_some_iff.1 eq
    obtain ⟨⟨n, g⟩, _, eq⟩ := Option.bind_eq_some_iff.1 eq
    cases eq
    exact Nat.le_trans (Mark.length_of_splitAt? hs) tail
  split at eq
  · obtain ⟨⟨w, r⟩, hs, eq⟩ := Option.bind_eq_some_iff.1 eq
    obtain ⟨n, _, eq⟩ := Option.bind_eq_some_iff.1 eq
    cases eq
    exact Nat.le_trans (Mark.length_of_splitAt? hs) tail
  · simp at eq

theorem length_of_behind? {mode : Mode} {groups groups' : Groups} {ms rest : List Mark} {h : Head}
    (eq : behind? mode groups ms = some (h, groups', rest)) : rest.length ≤ ms.length := by
  have tail : ms.tail.length ≤ ms.length := by simp
  unfold behind? at eq
  grind

theorem length_of_condition? {mode : Mode} {groups groups' : Groups} {ms rest : List Mark}
    {h : Head} (eq : condition? mode groups ms = some (h, groups', rest)) :
    rest.length ≤ ms.length := by
  obtain ⟨⟨w, r⟩, hs, eq⟩ := Option.bind_eq_some_iff.1 eq
  obtain ⟨⟨n, g⟩, _, eq⟩ := Option.bind_eq_some_iff.1 eq
  cases eq
  exact Mark.length_of_splitAt? hs

theorem length_of_ofMarks? {mode : Mode} {groups groups' : Groups} {ms rest : List Mark} {h : Head}
    (eq : ofMarks? mode groups ms = some (h, groups', rest)) : rest.length ≤ ms.length := by
  have tail : ms.tail.length ≤ ms.length := by simp
  unfold ofMarks? at eq
  simp only at eq
  split at eq
  · simp at eq
  split at eq
  · grind
  · grind
  · grind
  · grind
  · exact Nat.le_trans (length_of_behind? eq) tail
  · exact Nat.le_trans (length_of_namedBy? eq) tail
  · exact Nat.le_trans (length_of_condition? eq) tail
  · obtain ⟨⟨w, r⟩, hs, eq⟩ := Option.map_eq_some_iff.1 eq
    cases eq
    exact Nat.le_trans (Mark.length_of_splitAt? hs) tail
  · obtain ⟨⟨m', r⟩, hs, eq⟩ := Option.map_eq_some_iff.1 eq
    cases eq
    exact Mode.length_of_change? hs

end Head

end LinterSuite
