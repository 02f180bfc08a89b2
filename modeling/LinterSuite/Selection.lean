import LinterSuite.Config.Settings
import LinterSuite.FileTree.Basic
import LinterSuite.Glob.Matching
import LinterSuite.Text.Order

/-!
# Selecting files

A linter works on the files below its directory that its patterns include and no pattern excludes.
Some directories are never entered: those of version control and of the cache, links, those that an
exclude pattern describes, and, on request, nested checkouts.

## Main definitions

* `Walk`: where to look, and what not to enter
* `Walk.visits`: the files and the nested checkouts that a walk meets
* `SelectionError`: what can keep a selection from being made
* `FileTree.select`: the selected files in order
-/

namespace LinterSuite

/-- The names of directories that are never entered. -/
def alwaysSkipped : List String := [".git", defaultCacheDir]

/-- A walk below a directory. -/
structure Walk where
  /-- The names from the root to the directory. -/
  base : List String
  excludes : List Glob
  /-- Directories that are not entered. -/
  skipped : List Path
  /-- Whether nested checkouts are not entered. -/
  excludeSubmodules : Bool
  /-- The directories, by their names from the root, that are checkouts. -/
  isCheckout : List String → Bool

/-- What a walk meets. -/
inductive Visit where
  | file (relative : List String)
  /-- A checkout that is not entered. -/
  | checkout (relative : List String)
  deriving DecidableEq, Repr

/-- A relative path as text. -/
def relativeText (parts : List String) : String := "/".intercalate parts

namespace Walk

/-- A directory that is passed over without a word. -/
def isSkipped (w : Walk) (relative : List String) : Bool :=
  alwaysSkipped.contains (relative.getLast?.getD "") ||
    w.skipped.contains ⟨.root, w.base ++ relative⟩

/-- A checkout that is not entered. -/
def isNested (w : Walk) (relative : List String) : Bool :=
  w.excludeSubmodules && w.isCheckout (w.base ++ relative)

/-- A directory that an exclude pattern describes. -/
def isExcluded (w : Walk) (relative : List String) : Bool :=
  w.excludes.any fun g => g.accepts (relativeText relative) true

/-- What the walk meets in the named places below a directory. -/
def visits (w : Walk) (relative : List String) : List (String × Node) → List Visit
  | [] => []
  | (name, .file _) :: rest => .file (relative ++ [name]) :: visits w relative rest
  | (_, .link _) :: rest => visits w relative rest
  | (name, .dir _ es) :: rest =>
    let here := relative ++ [name]
    let below :=
      if w.isSkipped here then []
      else if w.isNested here then [.checkout here]
      else if w.isExcluded here then []
      else visits w here es
    below ++ visits w relative rest

end Walk

/-- The files that a walk meets, as text. -/
def Visit.files (vs : List Visit) : List String :=
  vs.filterMap fun
    | .file relative => some (relativeText relative)
    | .checkout _ => none

/-- The nested checkouts that a walk meets. -/
def Visit.checkouts (vs : List Visit) : List (List String) :=
  vs.filterMap fun
    | .file _ => none
    | .checkout relative => some relative

/-- What keeps a selection from being made. -/
inductive SelectionError where
  /-- A pattern cannot be read. -/
  | badGlob (error : GlobError)
  | badPath (error : FileTree.PathError)
  deriving DecidableEq, Repr

/-- The files selected for a linter, and the nested checkouts passed over. -/
structure Selection where
  files : List String
  checkouts : List Path
  deriving Repr

namespace FileTree

/-- A place that holds version control data. -/
def isCheckout (t : FileTree) (place : List String) : Bool :=
  t.pathExists ⟨.root, place ++ [".git"]⟩

/-- The files that a linter selects below its directory, with the patterns excluded for all. -/
def select (t : FileTree) (skipped : List Path) (s : LinterSettings) (workDir : Path)
    (globalExcludes : List String) : Except SelectionError Selection := do
  let includes ← (Glob.compileAll s.includes).mapError .badGlob
  let excludes ← (Glob.compileAll (globalExcludes ++ s.excludes)).mapError .badGlob
  let base ← (t.realPath workDir).mapError .badPath
  let w : Walk :=
    { base := base.parts, excludes, skipped, excludeSubmodules := s.excludeSubmodules
      isCheckout := t.isCheckout }
  let visits := match t.root.get? base.parts with
    | some n => w.visits [] n.entries
    | none => []
  let files := (Visit.files visits).filter fun file =>
    (includes.isEmpty || Glob.anyCovers includes file) && !Glob.anyCovers excludes file
  return {
    files := Text.sorted files
    checkouts := (Visit.checkouts visits).map fun relative => ⟨.root, base.parts ++ relative⟩ }

end FileTree

end LinterSuite
