import LinterSuite.Text.DecimalDigit
import Mathlib.Algebra.Group.Nat.Defs
import Mathlib.Data.List.Basic
import Mathlib.Data.List.Induction

/-!
# Digits of numbers

The digits that a number is written with are read as that number, and no run of digits of any script
writes a number that needs more digits than it has itself.

## Main results

* `Text.decimalNumber_toDigits`: a written number is read back
* `Text.length_toDigits_decimalNumber_le`: leading zeros aside, a number is as long as its digits
-/

namespace LinterSuite.Text

theorem toNat_of_isDigit {c : Char} (h : c.isDigit) : 0x30 ≤ c.toNat ∧ c.toNat ≤ 0x39 := by
  simpa [Char.isDigit, UInt32.le_iff_toNat_le] using h

theorem isDigit_of_mem_toDigits {n : Nat} {c : Char} (h : c ∈ Nat.toDigits 10 n) : c.isDigit :=
  Nat.isDigit_of_mem_toDigits (by decide) (by decide) h

theorem decimalValue?_of_isDigit {c : Char} (h : c.isDigit) :
    decimalValue? c = some (c.toNat - 0x30) := by
  have hrange := toNat_of_isDigit h
  rw [decimalValue?, if_pos (by omega), if_pos hrange]

/-- A written number is read back. -/
theorem decimalNumber_toDigits (n : Nat) : decimalNumber (Nat.toDigits 10 n) = n := by
  have hsame : decimalNumber (Nat.toDigits 10 n) = Nat.ofDigitChars 10 (Nat.toDigits 10 n) 0 := by
    refine List.foldl_ext _ _ 0 fun read c hc => ?_
    rw [decimalValue?_of_isDigit (isDigit_of_mem_toDigits hc)]
    rfl
  rw [hsame, Nat.ofDigitChars_ten_toDigits]

theorem decimalValue?_lt {c : Char} {n : Nat} (h : decimalValue? c = some n) : n < 10 := by
  unfold decimalValue? at h
  split_ifs at h with hascii hdigit
  · obtain rfl := Option.some.inj h
    omega
  · obtain ⟨first, hfind, rfl⟩ := Option.map_eq_some_iff.mp h
    have hrange : first ≤ c.toNat ∧ c.toNat ≤ first + 9 := by simpa using List.find?_some hfind
    omega

theorem decimalNumber_lt (digits : List Char) : decimalNumber digits < 10 ^ digits.length := by
  induction digits using List.reverseRecOn with
  | nil => exact Nat.one_pos
  | append_singleton digits c ih =>
    have hvalue : (decimalValue? c).getD 0 < 10 := by
      cases h : decimalValue? c with
      | none => exact Nat.succ_pos _
      | some n => exact decimalValue?_lt h
    rw [decimalNumber_concat, List.length_append, List.length_singleton, Nat.pow_succ]
    omega

/-- A number that digits write needs no more digits than these, or a single zero. -/
theorem length_toDigits_decimalNumber_le (digits : List Char) :
    (Nat.toDigits 10 (decimalNumber digits)).length ≤ max 1 digits.length := by
  rw [Nat.length_toDigits_le_iff (by decide) (by omega)]
  calc
    decimalNumber digits < 10 ^ digits.length := decimalNumber_lt digits
    _ ≤ 10 ^ max 1 digits.length := Nat.pow_le_pow_right (by decide) (Nat.le_max_right _ _)

end LinterSuite.Text
