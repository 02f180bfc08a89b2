import LinterSuite.Glob.CharClass
import LinterSuite.Glob.Expression

/-!
# Modes of reading

Inside a group the signs may mean something else than outside: case may not matter, a line end may
count as an end of the path, a point may stop at line feeds, and blanks may be written for looks.
The letters at the head of the group say so, those in front of a hyphen what begins, and those
behind it what ends.

## Main definitions

* `Mode`: what the signs mean
* `Mode.change?`: the mode inside a group with some letters at its head

## Main results

* `Mode.length_of_change?`: reading the letters consumes marks
-/

namespace LinterSuite

/-- Something about the meaning of signs that can be changed. -/
inductive Flag where
  | anyCase
  | eachLine
  | lineFeeds
  | spaced
  | asciiCase
  | allCase
  deriving DecidableEq, Repr

namespace Flag

/-- The flag of a letter. -/
def ofChar? : Char → Option Flag
  | 'i' => some anyCase
  | 'm' => some eachLine
  | 's' => some lineFeeds
  | 'x' => some spaced
  | 'a' => some asciiCase
  | 'u' => some allCase
  | _ => none

/-- The flag says which letters have a case. -/
def isAboutLetters (f : Flag) : Bool := f = asciiCase || f = allCase

end Flag

/-- What the signs mean. -/
structure Mode where
  /-- The case of letters does not matter. -/
  anyCase : Bool
  /-- Only ASCII letters have a case. -/
  asciiCase : Bool
  /-- The ends of a line count as ends of the path. -/
  eachLine : Bool
  /-- A point stands for line feeds, too. -/
  lineFeeds : Bool
  /-- Blanks, and remarks from a number sign to the end of the line, mean nothing. -/
  spaced : Bool
  deriving DecidableEq, Repr

namespace Mode

/-- What the signs mean outside of groups. -/
def standard : Mode :=
  { anyCase := false, asciiCase := false, eachLine := false, lineFeeds := true, spaced := false }

/-- The mode with a flag begun or ended. -/
def set (on : Bool) (m : Mode) : Flag → Mode
  | .anyCase => { m with anyCase := on }
  | .eachLine => { m with eachLine := on }
  | .lineFeeds => { m with lineFeeds := on }
  | .spaced => { m with spaced := on }
  | .asciiCase => { m with asciiCase := on }
  | .allCase => { m with asciiCase := !on }

/-- How far case tells letters apart. -/
def casing (m : Mode) : Casing :=
  if m.anyCase then (if m.asciiCase then .ascii else .unicode) else .exact

/-- A character that stands for itself. -/
def literal (m : Mode) (c : Char) : Single :=
  if m.anyCase then .letter m.casing c else .char c

/-- A character of a class. -/
def listed (m : Mode) (k : CharClass) : Single :=
  if m.anyCase then .letterOf m.casing k else .oneOf k

/-- What a point stands for. -/
def point (m : Mode) : Single := if m.lineFeeds then .any else .inLine

/-- The flags whose letters stand in front of some marks, and the rest. -/
def flags : List Mark → List Flag × List Mark
  | [] => ([], [])
  | m :: rest =>
    match if m.quoted then none else Flag.ofChar? m.char with
    | none => ([], m :: rest)
    | some f => (f :: (flags rest).1, (flags rest).2)

theorem length_flags_le (ms : List Mark) : (flags ms).2.length ≤ ms.length := by
  fun_induction flags ms with
  | case1 => simp
  | case2 => simp
  | case3 m rest f _ ih => simp only [List.length_cons]; omega

/-- Some flags can begin together: not both that say which letters have a case. -/
def canBegin (on : List Flag) : Bool := !(on.contains .asciiCase && on.contains .allCase)

/-- Some flags can end where others begin: which letters have a case is always said. -/
def canEnd (on off : List Flag) : Bool :=
  !off.isEmpty && off.all fun f => !f.isAboutLetters && !on.contains f

/-- The mode inside a group with some letters at its head, up to a colon, and what the group
holds. -/
def change? (m : Mode) (ms : List Mark) : Option (Mode × List Mark) :=
  let (on, rest) := flags ms
  let begun := on.foldl (set true) m
  match rest with
  | [] => none
  | c :: rest =>
    if !canBegin on then none
    else if c = .plain ':' then if on.isEmpty then none else some (begun, rest)
    else if c = .plain '-' then
      let (off, rest) := flags rest
      match rest with
      | [] => none
      | c :: rest =>
        if c = .plain ':' && canEnd on off then some (off.foldl (set false) begun, rest) else none
    else none

theorem length_of_change? {m m' : Mode} {ms rest : List Mark}
    (h : change? m ms = some (m', rest)) : rest.length ≤ ms.length := by
  have h1 := length_flags_le ms
  unfold change? at h
  simp only at h
  split at h
  · simp at h
  · next c r hr =>
    have h2 := length_flags_le r
    rw [hr, List.length_cons] at h1
    split at h
    · simp at h
    split at h
    · split at h
      · simp at h
      · simp only [Option.some.injEq, Prod.mk.injEq] at h
        rw [← h.2]; omega
    split at h
    · split at h
      · simp at h
      · next c' r' hr' =>
        rw [hr', List.length_cons] at h2
        split at h
        · simp only [Option.some.injEq, Prod.mk.injEq] at h
          rw [← h.2]; omega
        · simp at h
    · simp at h

end Mode

end LinterSuite
