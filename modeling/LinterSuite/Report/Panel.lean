/-!
# Panels

A short text in a frame with a title, as wide as a screen.

## Main definitions

* `panel`: a framed text

## Main results

* `panelLine_length`: a line that fits fills its frame
-/

namespace LinterSuite

/-- How many columns a panel has. -/
def panelWidth : Nat := 80

/-- Characters followed by as many others as fill a width. -/
def padded (fill : Char) (width : Nat) (cs : List Char) : List Char :=
  cs ++ List.replicate (width - cs.length) fill

/-- The line between the frame of a panel. -/
def panelLine (text : String) : List Char :=
  "│ ".toList ++ padded ' ' (panelWidth - 4) text.toList ++ " │".toList

/-- A text of one line in a frame with a title. -/
def panel (title text : String) : String :=
  let inner := panelWidth - 2
  String.ofList (
    '╭' :: padded '─' inner ("─ ".toList ++ title.toList ++ [' ']) ++ "╮\n".toList ++
    panelLine text ++ ['\n'] ++
    '╰' :: padded '─' inner [] ++ "╯\n".toList)

theorem length_padded (fill : Char) {width : Nat} {cs : List Char} (h : cs.length ≤ width) :
    (padded fill width cs).length = width := by
  simp [padded]; omega

theorem panelLine_length {text : String} (h : text.toList.length ≤ panelWidth - 4) :
    (panelLine text).length = panelWidth := by
  have := length_padded ' ' h
  simp only [panelLine, List.length_append, this]
  decide

end LinterSuite
