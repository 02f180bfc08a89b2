import LinterSuite.Text.Columns

/-!
# Styled text

Text that the program writes about itself may be coloured. Control characters that would move the
cursor are left out of it, and tabs are widened to the next stop.

## Main definitions

* `Style`, `Span`: a colour and a text in it
* `Span.paint`: spans as terminal output, with or without colour codes
* `Span.printed`: the same as a line of its own
-/

namespace LinterSuite

/-- The styles in use. -/
inductive Style where
  | plain | green | red | yellow | cyan | boldGreen | boldRed
  deriving DecidableEq, Repr

/-- The colour code of a style. -/
def Style.code? : Style → Option String
  | plain => none
  | green => some "32"
  | red => some "31"
  | yellow => some "33"
  | cyan => some "36"
  | boldGreen => some "1;32"
  | boldRed => some "1;31"

/-- A text in one style. -/
structure Span where
  style : Style
  text : String
  deriving DecidableEq, Repr

namespace Span

/-- The characters that are left out: bell, backspace, vertical tab, form feed and return. -/
def isDropped (c : Char) : Bool := [0x07, 0x08, 0x0B, 0x0C, 0x0D].contains c.toNat

/-- The distance between tab stops. -/
def tabWidth : Nat := 8

/-- A run of characters in one style; an empty run has no codes. -/
def run (color : Bool) (style : Style) (cs : List Char) : List Char :=
  match color, cs, style.code? with
  | true, _ :: _, some code =>
    ("\x1b[" ++ code ++ "m").toList ++ cs ++ "\x1b[0m".toList
  | _, _, _ => cs

/-- The output of the rest of some styled characters, behind a run `held` (reversed). The text since
the last tab or line end is measured from the given column. A run ends with its style, with its
line, and behind a tab; a tab is a blank, with more of them up to the next stop. -/
def paintFrom (color : Bool) (column : Nat) (measure : Text.Measure) (style : Style)
    (held : List Char) : List (Style × Char) → List Char
  | [] => run color style held.reverse
  | (s, c) :: rest =>
    if c = '\n' then run color style held.reverse ++ '\n' :: paintFrom color 0 .start s [] rest
    else
      let before := if s = style then [] else run color style held.reverse
      let held := if s = style then held else []
      if c = '\t' then
        let reached := column + (measure.step ' ').columns
        let more := (tabWidth - reached % tabWidth) % tabWidth
        before ++ run color s (held.reverse ++ ' ' :: List.replicate more ' ') ++
          paintFrom color (reached + more) .start s [] rest
      else before ++ paintFrom color column (measure.step c) s (c :: held) rest

/-- The output of some spans. -/
def paint (color : Bool) (spans : List Span) : String :=
  let styled := spans.flatMap fun s =>
    (s.text.toList.filter fun c => !isDropped c).map fun c => (s.style, c)
  String.ofList (paintFrom color 0 .start .plain [] styled)

/-- Spans printed as lines of their own. -/
def printed (color : Bool) (spans : List Span) : String := paint color spans ++ "\n"

end Span

end LinterSuite
