import LinterSuite.Json.Reading
import LinterSuite.Json.Writing
import Mathlib.Data.List.Basic

/-!
# String literals are read back

A character is written as itself or as an escape, and one beyond the basic plane as the escapes of
two halves. The reader first gives the numbers that the escapes name, and then joins halves. What a
character contributes to the numbers is the link between the two.

## Main definitions

* `Json.codeUnits`: the numbers that a written character names

## Main results

* `Json.stringBody?_escaped`: a written character names its numbers
* `Json.joinHalves_codeUnits`: those numbers make the character again
* `Json.text?_escaped`: a string literal is read as the text it was written for
-/

namespace LinterSuite.Json

/-- The numbers that a written character names: its code point, or the two halves of one beyond the
basic plane. -/
def codeUnits (c : Char) : List Nat :=
  if c.toNat ≤ 0xFFFF then [c.toNat]
  else [0xD800 + (c.toNat - 0x10000) / 0x400, 0xDC00 + (c.toNat - 0x10000) % 0x400]

/-! ### Escapes -/

/-- An escape of four digits names the number it was written for. -/
theorem stringBody?_unitEscape {n : Nat} (h : n < 0x10000) (rest : List Char) :
    stringBody? (unitEscape n ++ rest) = (stringBody? rest).map fun r => (n :: r.1, r.2) := by
  have hdigit : ∀ m, Text.hexValue? (Text.hexDigit (m % 16)) = some (m % 16) := fun m =>
    Text.hexValue?_hexDigit (Nat.mod_lt _ (by decide))
  have hunit : unit? (Text.hexDigit (n / 16 / 16 / 16 % 16)) (Text.hexDigit (n / 16 / 16 % 16))
      (Text.hexDigit (n / 16 % 16)) (Text.hexDigit (n % 16)) = some n := by
    simp only [unit?, hdigit, Option.bind_eq_bind, Option.bind_some, Option.pure_def,
      Option.some.injEq]
    omega
  simp only [unitEscape, Text.hexDigits, List.nil_append, List.cons_append]
  rw [stringBody?, hunit]
  cases stringBody? rest <;> rfl

/-- A character that needs no escape names itself. -/
theorem stringBody?_plain {c : Char} (hquote : c ≠ '"') (hslash : c ≠ '\\')
    (hcontrol : 0x20 ≤ c.toNat) (rest : List Char) :
    stringBody? (c :: rest) = (stringBody? rest).map fun r => (c.toNat :: r.1, r.2) := by
  rw [stringBody?.eq_def]
  split
  · simp_all
  · simp_all
  · simp_all
  · simp_all
  · next c' rest' _ _ _ heq =>
    obtain ⟨rfl, rfl⟩ := List.cons.inj heq
    rw [if_neg (by rintro (h | h) <;> [omega; exact hslash h])]

/-- A letter behind a backslash names the number it stands for. -/
theorem stringBody?_escape {e : Char} {n : Nat} (hne : e ≠ 'u') (h : escape? e = some n)
    (rest : List Char) :
    stringBody? ('\\' :: e :: rest) = (stringBody? rest).map fun r => (n :: r.1, r.2) := by
  rw [stringBody?, h]
  · cases stringBody? rest <;> rfl
  · intro a b c d rest' he
    exact absurd he hne

theorem codeUnits_of_le {c : Char} (h : c.toNat ≤ 0xFFFF) : codeUnits c = [c.toNat] := if_pos h

/-- A written character names its numbers. -/
theorem stringBody?_escaped (c : Char) (rest : List Char) :
    stringBody? (escaped c ++ rest) =
      (stringBody? rest).map fun r => (codeUnits c ++ r.1, r.2) := by
  unfold escaped
  -- The short forms come first, then plain characters, then one or two numeric forms.
  split_ifs with hself hnewline hreturn htab hback hfeed hplain hbasic
  · rcases hself with rfl | rfl
    · exact stringBody?_escape (by decide) rfl rest
    · exact stringBody?_escape (by decide) rfl rest
  · subst hnewline
    exact stringBody?_escape (by decide) rfl rest
  · subst hreturn
    exact stringBody?_escape (by decide) rfl rest
  · subst htab
    exact stringBody?_escape (by decide) rfl rest
  · rw [codeUnits_of_le (by omega), hback]
    exact stringBody?_escape (by decide) rfl rest
  · rw [codeUnits_of_le (by omega), hfeed]
    exact stringBody?_escape (by decide) rfl rest
  · obtain ⟨hquote, hslash⟩ := not_or.mp hself
    rw [codeUnits_of_le (by omega)]
    exact stringBody?_plain hquote hslash hplain.1 rest
  · rw [codeUnits_of_le hbasic]
    exact stringBody?_unitEscape (by omega) rest
  · have hvalid : c.toNat.isValidChar := c.valid
    unfold Nat.isValidChar at hvalid
    rw [List.append_assoc, stringBody?_unitEscape (by omega), stringBody?_unitEscape (by omega),
      codeUnits, if_neg hbasic, Option.map_map]
    rfl

/-! ### Halves -/

/-- The numbers of a character make the character again. -/
theorem joinHalves_codeUnits (c : Char) (ns : List Nat) :
    joinHalves (codeUnits c ++ ns) = (joinHalves ns).map (c :: ·) := by
  have hchar : Char.ofNat c.toNat = c := Char.ofNat_toNat c
  have hvalid : c.toNat.isValidChar := c.valid
  unfold Nat.isValidChar at hvalid
  unfold codeUnits
  split_ifs with hbasic
  · have hwhole : ¬ (0xD800 ≤ c.toNat ∧ c.toNat ≤ 0xDFFF) := by omega
    cases ns with
    | nil => simp [joinHalves, hwhole, hchar]
    | cons n ns =>
      have hfirst : ¬ (0xD800 ≤ c.toNat ∧ c.toNat ≤ 0xDBFF ∧ 0xDC00 ≤ n ∧ n ≤ 0xDFFF) := by omega
      rw [List.singleton_append, joinHalves, if_neg hfirst, if_neg hwhole, hchar]
  · have hpair : 0x10000 + (0xD800 + (c.toNat - 0x10000) / 0x400 - 0xD800) * 0x400 +
        (0xDC00 + (c.toNat - 0x10000) % 0x400 - 0xDC00) = c.toNat := by omega
    rw [List.cons_append, List.singleton_append, joinHalves, if_pos (by omega), hpair, hchar]

/-! ### Literals -/

theorem stringBody?_flatMap_escaped (cs rest : List Char) :
    stringBody? (cs.flatMap escaped ++ '"' :: rest) = some (cs.flatMap codeUnits, rest) := by
  induction cs with
  | nil => simp [stringBody?]
  | cons c cs ih =>
    rw [List.flatMap_cons, List.append_assoc, stringBody?_escaped, ih, List.flatMap_cons]
    rfl

theorem joinHalves_flatMap_codeUnits (cs : List Char) :
    joinHalves (cs.flatMap codeUnits) = some cs := by
  induction cs with
  | nil => rfl
  | cons c cs ih => rw [List.flatMap_cons, joinHalves_codeUnits, ih, Option.map_some]

/-- A string literal is read as the text it was written for. -/
theorem text?_escaped (s : String) (rest : List Char) :
    text? (s.toList.flatMap escaped ++ '"' :: rest) = some (some s, rest) := by
  simp only [text?, stringBody?_flatMap_escaped, joinHalves_flatMap_codeUnits, Option.map_some,
    String.ofList_toList]

end LinterSuite.Json
