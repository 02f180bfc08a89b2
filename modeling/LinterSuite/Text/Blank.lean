/-!
# Blank characters

The characters that count as white space at the ends of a text: spaces, tabs, line ends and the
separators of all scripts.

## Main definitions

* `Text.isBlank`: the class of blank characters
* `Text.strip`: a text without the blank characters at its two ends
* `Text.isBlankText`: a text with nothing but blank characters

## Main results

* `Text.isBlank_of_isWhitespace`: the class extends the ASCII one
* `Text.isBlankText_iff`: a text is blank exactly if stripping leaves nothing
-/

namespace LinterSuite.Text

/-- White space in the sense of the Unicode property, with the four ASCII separators. -/
def isBlank (c : Char) : Bool :=
  let n := c.toNat
  (0x09 ≤ n && n ≤ 0x0D) || (0x1C ≤ n && n ≤ 0x20) || n == 0x85 || n == 0xA0 || n == 0x1680 ||
    (0x2000 ≤ n && n ≤ 0x200A) || n == 0x2028 || n == 0x2029 || n == 0x202F || n == 0x205F ||
    n == 0x3000

/-- The characters that remain when blanks are taken off both ends. -/
def stripChars (cs : List Char) : List Char :=
  ((cs.dropWhile isBlank).reverse.dropWhile isBlank).reverse

/-- The text without blanks at its ends. -/
def strip (s : String) : String := String.ofList (stripChars s.toList)

/-- No character but blanks. -/
def isBlankText (s : String) : Bool := s.toList.all isBlank

theorem isBlank_of_isWhitespace {c : Char} (h : c.isWhitespace) : isBlank c := by
  simp only [Char.isWhitespace, Bool.or_eq_true, decide_eq_true_eq] at h
  rcases h with ((rfl | rfl) | rfl) | rfl <;> decide

theorem dropWhile_isBlank_eq_nil_iff {cs : List Char} :
    cs.dropWhile isBlank = [] ↔ cs.all isBlank = true := by
  induction cs with
  | nil => simp
  | cons c cs ih => by_cases h : isBlank c <;> simp [h, ih]

theorem stripChars_eq_nil_iff {cs : List Char} : stripChars cs = [] ↔ cs.all isBlank = true := by
  rw [stripChars, List.reverse_eq_nil_iff, dropWhile_isBlank_eq_nil_iff, List.all_reverse]
  induction cs with
  | nil => simp
  | cons c cs ih => by_cases h : isBlank c <;> simp [h, ih]

theorem isBlankText_iff {s : String} : isBlankText s = true ↔ strip s = "" := by
  rw [strip, isBlankText, ← stripChars_eq_nil_iff, ← String.toList_inj, String.toList_ofList]
  simp

end LinterSuite.Text
