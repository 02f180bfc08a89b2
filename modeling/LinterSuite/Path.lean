import LinterSuite.Text.Pieces

/-!
# Paths

A path is a list of components behind an optional root. Repeated separators and dots say nothing
and are dropped on reading; two dots are kept, since what they mean depends on links.

## Main definitions

* `Path`: a path, relative or from a root
* `Path.ofString`, `Path.toString`: reading and writing
* `Path.join`: a path taken from a directory
* `Path.expandHome`: a tilde in front replaced by a home directory
* `HomeError`: a tilde that names no home directory

## Main results

* `Path.join_of_isAbsolute`: an absolute path is the same from every directory
-/

namespace LinterSuite

/-- Where a path starts. A root of exactly two separators is a root of its own. -/
inductive Path.Anchor where
  | relative | root | doubleRoot
  deriving DecidableEq, Repr

/-- A path: its start and its components, none of them empty or a dot. -/
structure Path where
  anchor : Path.Anchor
  parts : List String
  deriving DecidableEq, Repr

/-- The home directories that a tilde can name. -/
structure Homes where
  /-- The one of a tilde alone. -/
  own : String
  /-- Those of a tilde with a name. -/
  named : List (String × String)
  deriving Repr

/-- Why a tilde names no home directory. -/
inductive HomeError where
  /-- There is nobody of that name. -/
  | unknown
  /-- Nobody has a name with a null character. -/
  | nullInName
  deriving DecidableEq, Repr

/-- The report of a tilde that names no home directory. -/
def HomeError.message : HomeError → String
  | unknown => "Could not determine home directory."
  | nullInName => "embedded null byte"

/-- The home directory of a name, the own one without a name. -/
def Homes.home (homes : Homes) (name : List Char) : Except HomeError String :=
  if name.isEmpty then .ok homes.own
  else if name.contains '\x00' then .error .nullInName
  else (homes.named.lookup (String.ofList name)).elim (.error .unknown) .ok

namespace Path

/-- The text of the root. -/
def Anchor.text : Anchor → String
  | relative => ""
  | root => "/"
  | doubleRoot => "//"

/-- The components of a text: its pieces without empty ones and dots. -/
def components (cs : List Char) : List String :=
  ((Text.pieces '/' cs).filter fun p => !p.isEmpty && p != ['.']).map String.ofList

/-- The path that a text writes. -/
def ofString (s : String) : Path :=
  let cs := s.toList
  let anchor := match (cs.takeWhile (· == '/')).length with
    | 0 => Anchor.relative
    | 2 => .doubleRoot
    | _ => .root
  ⟨anchor, components cs⟩

/-- The text of a path; the path of no components is a dot. -/
def toString (p : Path) : String :=
  match p.anchor, p.parts with
  | .relative, [] => "."
  | anchor, parts => anchor.text ++ "/".intercalate parts

instance : ToString Path := ⟨toString⟩

/-- A path that starts at a root. -/
def isAbsolute (p : Path) : Bool := p.anchor != .relative

/-- A path with a null character, which leads nowhere. -/
def hasNull (p : Path) : Bool := p.parts.any fun part => part.toList.contains '\x00'

/-- The second path, taken from the first if it is relative. -/
def join (p q : Path) : Path :=
  if q.isAbsolute then q else ⟨p.anchor, p.parts ++ q.parts⟩

/-- A component below a path. -/
def child (p : Path) (name : String) : Path := ⟨p.anchor, p.parts ++ [name]⟩

/-- The path without its last component. -/
def parent (p : Path) : Path := ⟨p.anchor, p.parts.dropLast⟩

/-- The last component. -/
def name (p : Path) : String := p.parts.getLast?.getD ""

/-- The path and the directories above it, the nearest first. -/
def ancestry (p : Path) : List Path :=
  (List.range (p.parts.length + 1)).reverse.map fun n => ⟨p.anchor, p.parts.take n⟩

/-- A path with a tilde in front, alone or with a name, replaced by the home directory it names. -/
def expandHome (homes : Homes) (p : Path) : Except HomeError Path :=
  match p.anchor, p.parts with
  | .relative, first :: rest =>
    match first.toList with
    | '~' :: name => (homes.home name).map fun h =>
      let base := ofString h
      ⟨base.anchor, base.parts ++ rest⟩
    | _ => .ok p
  | _, _ => .ok p

theorem join_of_isAbsolute {p q : Path} (h : q.isAbsolute = true) : p.join q = q := by
  simp [join, h]

end Path

end LinterSuite
