import LinterSuite.Text.CharWidth
import LinterSuite.Text.CodeRange

/-!
# Columns of a terminal

How many columns of a terminal a text takes. Most characters take their own columns. A joiner hides
the character behind it, since both are drawn as one picture, and the selector of the picture form
widens the symbol that was drawn last.

## Main definitions

* `Text.ownColumns`: the columns that a character takes by itself
* `Text.Measure`: how far a text has been measured
* `Text.columns`: the columns of a text

## Main results

* `Text.columns_eq_length`: a text of plain letters takes a column for each
-/

namespace LinterSuite.Text

/-- The columns that a character takes by itself; controls take none. -/
def ownColumns (c : Char) : Nat :=
  let n := c.toNat
  if n < 0x20 ∨ (0x7F ≤ n ∧ n < 0xA0) then 0
  else if n < 0x300 then 1
  else if inRanges unspacedRanges n then 0
  else if inRanges wideRanges n then 2
  else 1

/-- How far a text has been measured. -/
structure Measure where
  columns : Nat
  /-- The last character that took columns, unless it has been widened. -/
  last : Option Char
  /-- A joiner was met, which hides the next character. -/
  joined : Bool
  deriving DecidableEq, Repr

namespace Measure

/-- The measure of no text. -/
def start : Measure := ⟨0, none, false⟩

/-- The measure of a text with one character more. -/
def step (m : Measure) (c : Char) : Measure :=
  if m.joined then { m with joined := false }
  else if c = '\u200d' then { m with joined := true }
  else if c = '\ufe0f' then
    match m.last with
    | none => m
    | some before =>
      { m with
        columns := m.columns + (if inRanges pictureRanges before.toNat then 1 else 0)
        last := none }
  else if ownColumns c = 0 then m
  else { m with columns := m.columns + ownColumns c, last := some c }

end Measure

/-- The columns that a text takes. -/
def columns (cs : List Char) : Nat := (cs.foldl Measure.step .start).columns

/-- A character of the ASCII range that is no control. -/
def IsPlain (c : Char) : Prop := 0x20 ≤ c.toNat ∧ c.toNat < 0x7F

theorem Measure.step_of_isPlain {c : Char} (h : IsPlain c) {m : Measure} (hm : m.joined = false) :
    m.step c = { m with columns := m.columns + 1, last := some c } := by
  obtain ⟨low, high⟩ := h
  have joiner : c ≠ '\u200d' := by rintro rfl; exact absurd high (by decide)
  have selector : c ≠ '\ufe0f' := by rintro rfl; exact absurd high (by decide)
  have own : ownColumns c = 1 := by
    unfold ownColumns
    rw [if_neg (by omega), if_pos (by omega)]
  simp [step, hm, joiner, selector, own]

theorem foldl_step_of_isPlain {cs : List Char} (h : ∀ c ∈ cs, IsPlain c) {m : Measure}
    (hm : m.joined = false) : (cs.foldl Measure.step m).columns = m.columns + cs.length := by
  induction cs generalizing m with
  | nil => simp
  | cons c cs ih =>
    have hc : IsPlain c := h c (by simp)
    have hcs : ∀ d ∈ cs, IsPlain d := fun d hd => h d (by simp [hd])
    rw [List.foldl_cons, Measure.step_of_isPlain hc hm, ih hcs (by simpa using hm)]
    simp only [List.length_cons]
    omega

theorem columns_eq_length {cs : List Char} (h : ∀ c ∈ cs, IsPlain c) :
    columns cs = cs.length := by
  rw [columns, foldl_step_of_isPlain h rfl]
  simp [Measure.start]

end LinterSuite.Text
