import LinterSuite.Glob.Pattern
import LinterSuite.Glob.Scan

/-!
# Matching paths with patterns

A pattern matches a path from end to end. It covers a path if it matches the path or one of the
directories above it.

## Main definitions

* `Glob.accepts`, `Glob.covers`: one pattern on one path
* `Glob.anyCovers`: several patterns on one path

## Main results

* `Glob.anyCovers_append`: more patterns cover what either of them cover
-/

namespace LinterSuite.Glob

/-- The pattern matches the path, of a directory or of something else. -/
def accepts (g : Glob) (path : String) (isDir : Bool) : Bool :=
  (!g.dirOnly || isDir) && g.expression.describes path.toList

/-- The path above a path, and so on up to a single component, the path itself first. -/
def ancestry (path : String) : List String :=
  let parts := splitComponents path.toList
  (List.range parts.length).reverse.map fun n =>
    String.ofList (['/'].intercalate (parts.take (n + 1)))

/-- The pattern matches the path as a file, or one of the directories above it. -/
def covers (g : Glob) (path : String) : Bool :=
  match ancestry path with
  | [] => false
  | self :: above => g.accepts self false || above.any fun dir => g.accepts dir true

/-- One of the patterns covers the path. -/
def anyCovers (gs : List Glob) (path : String) : Bool := gs.any (·.covers path)

theorem anyCovers_append (gs hs : List Glob) (path : String) :
    anyCovers (gs ++ hs) path = (anyCovers gs path || anyCovers hs path) := by
  simp [anyCovers]

end LinterSuite.Glob
