/-!
# Character classes of patterns

A class lists single characters and ranges between square brackets. A closing bracket in the first
place and a hyphen at either end stand for themselves, and so does every quoted character.

## Main definitions

* `Mark`: a character that may be quoted
* `CharClass`: ranges of characters, or all characters outside them
* `CharClass.contains`: membership
* `CharClass.members?`: the ranges that some marks list, up to the closing bracket

## Main results

* `CharClass.contains_negate`: a negated class is the complement
* `CharClass.length_of_members?`: reading the members consumes marks
-/

namespace LinterSuite

/-- A character that may be quoted, so that it stands for itself. -/
structure Mark where
  char : Char
  quoted : Bool
  deriving DecidableEq, Repr

/-- An unquoted character. -/
def Mark.plain (c : Char) : Mark := ⟨c, false⟩

/-- Unquoted characters. -/
def Mark.plains (cs : List Char) : List Mark := cs.map plain

/-- A set of characters, given by closed ranges that it either has or lacks. -/
structure CharClass where
  negated : Bool
  ranges : List (Char × Char)
  deriving DecidableEq, Repr

namespace CharClass

/-- A character of one of the ranges. -/
def inRanges (ranges : List (Char × Char)) (c : Char) : Bool :=
  ranges.any fun r => decide (r.1 ≤ c ∧ c ≤ r.2)

/-- A character of the class. -/
def contains (k : CharClass) (c : Char) : Bool := inRanges k.ranges c != k.negated

/-- The complement. -/
def negate (k : CharClass) : CharClass := { k with negated := !k.negated }

@[simp] theorem contains_negate (k : CharClass) (c : Char) :
    k.negate.contains c = !k.contains c := by
  cases h : k.negated <;> cases h' : inRanges k.ranges c <;> simp [contains, negate, h, h']

/-- Adds the members that some marks list to `seen`, up to the closing bracket. A bracket closes
only a list that has a member. Nothing is returned for a list that is not closed, or that has a
range with its ends reversed. -/
def members? (seen : List (Char × Char)) : List Mark → Option (List (Char × Char) × List Mark)
  | [] => none
  | c :: rest =>
    if c = .plain ']' ∧ seen ≠ [] then some (seen, rest)
    else match rest with
      | [] => none
      | [h] => if h = .plain '-' then none else members? (seen ++ [(c.char, c.char)]) [h]
      | h :: d :: rest =>
        if h = .plain '-' then
          if d = .plain ']' then some (seen ++ [(c.char, c.char), ('-', '-')], rest)
          else if d.char < c.char then none
          else members? (seen ++ [(c.char, d.char)]) rest
        else members? (seen ++ [(c.char, c.char)]) (h :: d :: rest)

theorem length_of_members? {seen ranges : List (Char × Char)} {ms rest : List Mark}
    (h : members? seen ms = some (ranges, rest)) : rest.length < ms.length := by
  fun_induction members? seen ms <;> simp_all only [List.length_cons, reduceCtorEq,
    Option.some.injEq, Prod.mk.injEq, List.length_nil] <;> grind

/-- The class of some marks behind its opening bracket, with the marks behind it. -/
def ofMarks? : List Mark → Option (CharClass × List Mark)
  | [] => none
  | m :: ms =>
    if m = .plain '^' then (members? [] ms).map fun (ranges, rest) => (⟨true, ranges⟩, rest)
    else (members? [] (m :: ms)).map fun (ranges, rest) => (⟨false, ranges⟩, rest)

theorem length_of_ofMarks? {k : CharClass} {ms rest : List Mark}
    (h : ofMarks? ms = some (k, rest)) : rest.length < ms.length := by
  unfold ofMarks? at h
  split at h
  · simp at h
  · split at h <;> obtain ⟨⟨ranges, r⟩, hm, heq⟩ := Option.map_eq_some_iff.1 h <;> cases heq <;>
      have := length_of_members? hm
    · simp only [List.length_cons]; omega
    · exact this

end CharClass

end LinterSuite
