import LinterSuite.Glob.Expression

/-!
# Signs

What a pattern writes is a row of signs. Most signs are finished parts, whose meaning is fixed; the
others are characters, some of which group, repeat or choose between what stands around them. Every
part can be taken apart into the characters that write it.

## Main definitions

* `Part`: a finished part of an expression
* `Sign`: a finished part, or a character
* `Sign.weight`: how much there is to read
* `Mark.splitAt?`: what stands in front of an unquoted character and behind it

## Main results

* `Sign.length_flatMap_marks_le`: taking parts apart leaves no more to read
-/

namespace LinterSuite

/-- A finished part of an expression. -/
structure Part where
  expression : Expression
  /-- It can be repeated: neither a repetition nor an end of the path can. -/
  repeatable : Bool

/-- A part that stands for one character of a kind. -/
def Part.one (s : Single) : Part := ⟨.one s, true⟩

/-- A finished part, as it is written, or a character. -/
inductive Sign where
  | part (p : Part) (written : List Mark)
  | mark (m : Mark)

namespace Sign

/-- The marks that write a sign. -/
def marks : Sign → List Mark
  | part _ written => written
  | mark m => [m]

/-- Marks that stand for themselves as signs. -/
def ofMarks (ms : List Mark) : List Sign := ms.map mark

/-- How much there is to read in some signs. -/
def weight : List Sign → Nat
  | [] => 0
  | .part _ written :: signs => 2 * written.length + 1 + weight signs
  | .mark _ :: signs => 2 + weight signs

theorem length_flatMap_marks_le (signs : List Sign) :
    2 * (signs.flatMap marks).length ≤ weight signs := by
  induction signs with
  | nil => simp [weight]
  | cons s rest ih =>
    cases s <;> simp only [List.flatMap_cons, List.length_append, weight, marks,
      List.length_singleton] <;> omega

theorem weight_append (signs more : List Sign) :
    weight (signs ++ more) = weight signs + weight more := by
  induction signs with
  | nil => simp [weight]
  | cons s rest ih => cases s <;> simp only [List.cons_append, weight, ih] <;> omega

theorem weight_ofMarks (ms : List Mark) : weight (ofMarks ms) = 2 * ms.length := by
  induction ms with
  | nil => rfl
  | cons m ms ih =>
    rw [ofMarks] at ih ⊢
    simp only [List.map_cons, weight, List.length_cons, ih]
    omega

theorem weight_tail_le (signs : List Sign) : weight signs.tail ≤ weight signs := by
  fun_cases weight signs <;> simp [weight]

/-- Marks that are no more than those of some signs are no more to read. -/
theorem weight_ofMarks_le {ms : List Mark} {signs : List Sign}
    (h : ms.length ≤ (signs.flatMap marks).length) : weight (ofMarks ms) ≤ weight signs := by
  have := length_flatMap_marks_le signs
  rw [weight_ofMarks]
  omega

/-- The signs begin with a character that is not quoted. -/
def startsWith (c : Char) : List Sign → Bool
  | .mark m :: _ => m = .plain c
  | _ => false

end Sign

namespace Mark

/-- What stands in front of the first character of a kind that is not quoted, and what stands behind
it. -/
def splitAt? (c : Char) (ms : List Mark) : Option (List Mark × List Mark) :=
  match ms.dropWhile (· != plain c) with
  | [] => none
  | _ :: rest => some (ms.takeWhile (· != plain c), rest)

theorem length_of_splitAt? {c : Char} {ms front rest : List Mark}
    (h : splitAt? c ms = some (front, rest)) : rest.length ≤ ms.length := by
  have hs := (List.dropWhile_sublist (fun x => x != plain c) (l := ms)).length_le
  unfold splitAt? at h
  split at h
  · simp at h
  · next heq =>
    rw [heq] at hs
    simp only [Option.some.injEq, Prod.mk.injEq] at h
    rw [← h.2]
    simp only [List.length_cons] at hs
    omega

/-- The text of some marks, if none of them is quoted. -/
def text? (ms : List Mark) : Option (List Char) :=
  if ms.any (·.quoted) then none else some (ms.map (·.char))

end Mark

end LinterSuite
