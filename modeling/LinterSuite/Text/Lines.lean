/-!
# Lines of a text

A text is a sequence of lines, each closed by a line break. The last line need not be closed, and
nothing after the last break is no line.

## Main definitions

* `Text.isLineBreak`: the characters that close a line
* `Text.lines`: the lines of a text, without their breaks

## Main results

* `Text.lines_nil`: the empty text has no line
* `Text.not_isLineBreak_of_mem_lines`: no line holds a line break
-/

namespace LinterSuite.Text

/-- A line feed, a carriage return, or one of the other vertical separators. -/
def isLineBreak (c : Char) : Bool :=
  let n := c.toNat
  (0x0A ≤ n && n ≤ 0x0D) || (0x1C ≤ n && n ≤ 0x1E) || n == 0x85 || n == 0x2028 || n == 0x2029

/-- The lines of the rest of a text whose current line holds `held` already, reversed. A carriage
return with a line feed behind it is one break. -/
def linesFrom (held : List Char) : List Char → List (List Char)
  | [] => if held.isEmpty then [] else [held.reverse]
  | '\r' :: '\n' :: rest => held.reverse :: linesFrom [] rest
  | c :: rest =>
    if isLineBreak c then held.reverse :: linesFrom [] rest else linesFrom (c :: held) rest

/-- The lines of a text in order. -/
def lines (s : String) : List String := (linesFrom [] s.toList).map String.ofList

@[simp] theorem lines_nil : lines "" = [] := rfl

theorem not_isLineBreak_of_mem_linesFrom {held cs line : List Char}
    (hh : ∀ c ∈ held, isLineBreak c = false) (h : line ∈ linesFrom held cs) :
    ∀ c ∈ line, isLineBreak c = false := by
  fun_induction linesFrom held cs with
  | case1 => simp at h
  | case2 held hne => simp at h; subst h; simpa using hh
  | case3 held rest ih =>
    rcases List.mem_cons.1 h with rfl | h
    · simpa using hh
    · exact ih (by simp) h
  | case4 held c rest _ hc ih =>
    rcases List.mem_cons.1 h with rfl | h
    · simpa using hh
    · exact ih (by simp) h
  | case5 held c rest _ hc ih =>
    refine ih (fun d hd => ?_) h
    rcases List.mem_cons.1 hd with rfl | hd
    · simpa using hc
    · exact hh d hd

theorem not_isLineBreak_of_mem_lines {s line : String} (h : line ∈ lines s) :
    ∀ c ∈ line.toList, isLineBreak c = false := by
  obtain ⟨cs, hcs, rfl⟩ := List.mem_map.1 h
  simpa using not_isLineBreak_of_mem_linesFrom (by simp) hcs

end LinterSuite.Text
