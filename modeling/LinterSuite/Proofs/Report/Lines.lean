import LinterSuite.Proofs.Text.Separators
import LinterSuite.Report.Format
import LinterSuite.Text.Lines
import LinterSuite.Text.Numeral

/-!
# Lines of a report

A report of diagnostics alone is a sequence of closed lines. Lines that hold no line breaks are
found again in the text that they make, whether it is cut at line feeds or at all line breaks.

## Main definitions

* `Message.HasShortNumbers`: a diagnostic with numbers that can be read back

## Main results

* `pieces_closedLines`: lines without line feeds are what stands between the line feeds
* `Text.lines_closedLines`: lines without line breaks are the lines of the text
-/

namespace LinterSuite

/-- A diagnostic with numbers that can be read back. -/
structure Message.HasShortNumbers (m : Message) : Prop where
  line : (Nat.toDigits 10 m.line.natAbs).length ≤ Text.numeralLimit
  column : (Nat.toDigits 10 m.column.natAbs).length ≤ Text.numeralLimit

theorem toList_closedLines_cons (line : String) (lines : List String) :
    (closedLines (line :: lines)).toList = line.toList ++ '\n' :: (closedLines lines).toList := by
  simp [closedLines]

theorem closedLines_append (lines others : List String) :
    closedLines (lines ++ others) = closedLines lines ++ closedLines others := by
  simp [closedLines]

/-- What is true of all characters of some lines is true of all characters of their text but the
line feeds. -/
theorem mem_closedLines {P : Char → Prop} {lines : List String}
    (h : ∀ line ∈ lines, ∀ c ∈ line.toList, P c) :
    ∀ c ∈ (closedLines lines).toList, c = '\n' ∨ P c := by
  induction lines with
  | nil => exact List.forall_mem_nil _
  | cons line lines ih =>
    obtain ⟨hline, hlines⟩ := List.forall_mem_cons.mp h
    rw [toList_closedLines_cons]
    exact List.forall_mem_append.mpr ⟨fun c hc => .inr (hline c hc),
      List.forall_mem_cons.mpr ⟨.inl rfl, ih hlines⟩⟩

/-- Lines without line feeds are what stands between the line feeds; nothing stands behind the
last. -/
theorem pieces_closedLines {lines : List String} (h : ∀ line ∈ lines, '\n' ∉ line.toList) :
    Text.pieces '\n' (closedLines lines).toList = lines.map String.toList ++ [[]] := by
  induction lines with
  | nil => rfl
  | cons line lines ih =>
    obtain ⟨hline, hlines⟩ := List.forall_mem_cons.mp h
    rw [toList_closedLines_cons, Text.pieces_append hline, ih hlines]
    rfl

namespace Text

/-- A line ends at its first line break. -/
theorem linesFrom_append {line : List Char} (h : ∀ c ∈ line, isLineBreak c = false)
    (held rest : List Char) :
    linesFrom held (line ++ '\n' :: rest) = (held.reverse ++ line) :: linesFrom [] rest := by
  induction line generalizing held with
  | nil => rw [List.nil_append, linesFrom, if_pos (by decide), List.append_nil]; simp
  | cons c line ih =>
    obtain ⟨hc, hline⟩ := List.forall_mem_cons.mp h
    rw [List.cons_append, linesFrom, if_neg (by simp [hc]), ih hline]
    · simp
    · rintro rest rfl
      exact absurd hc (by decide)

/-- Lines without line breaks are the lines of the text that they make. -/
theorem lines_closedLines {ls : List String}
    (h : ∀ line ∈ ls, ∀ c ∈ line.toList, isLineBreak c = false) : lines (closedLines ls) = ls := by
  have hlines : linesFrom [] (closedLines ls).toList = ls.map String.toList := by
    induction ls with
    | nil => rfl
    | cons line ls ih =>
      obtain ⟨hline, hls⟩ := List.forall_mem_cons.mp h
      rw [toList_closedLines_cons, linesFrom_append hline, ih hls]
      rfl
  rw [lines, hlines, List.map_map]
  simp

end Text

end LinterSuite
