import LinterSuite.FileTree.Node
import LinterSuite.Path

/-!
# Following links by name

To find the place that a path leads to, links are replaced one by one by what they say. On the way a
place goes by the name under which it was reached: from the root, or from the current directory. A
link that is met again under the same name while it is being followed ends the way.

## Main definitions

* `Spot`: a place by its name
* `Spot.resolve`: where some pieces of a path lead, links replaced

## Main results

* `Spot.place_child`: a place below another is below it under every name
-/

namespace LinterSuite

/-- A place by its name. -/
structure Spot where
  /-- How many directories above the current one the name starts; nothing if it starts at the
  root. -/
  above : Option Nat
  names : List String
  deriving DecidableEq, Repr

namespace Spot

/-- The root. -/
def root : Spot := ⟨none, []⟩

/-- The current directory. -/
def here : Spot := ⟨some 0, []⟩

/-- The names from the root to the place. -/
def place (cwd : List String) (s : Spot) : List String :=
  match s.above with
  | none => s.names
  | some n => cwd.take (cwd.length - n) ++ s.names

/-- A place in a directory. -/
def child (s : Spot) (name : String) : Spot := { s with names := s.names ++ [name] }

theorem place_child (cwd : List String) (s : Spot) (name : String) :
    (s.child name).place cwd = s.place cwd ++ [name] := by
  cases h : s.above <;> simp [place, child, h]

/-- The directory above a place. -/
def up (s : Spot) : Spot :=
  match s.above, s.names with
  | some n, [] => ⟨some (n + 1), []⟩
  | above, names => ⟨above, names.dropLast⟩

/-- Where a path starts that is taken from a place. -/
def startOf (s : Spot) (path : String) : Spot := if path.startsWith "/" then root else s

/-- The pieces of a path between separators, empty ones and dots included. -/
def piecesOf (path : String) : List String := (Text.pieces '/' path.toList).map String.ofList

/-- A place with the unread pieces of a path behind it. Pieces that start with a separator lead from
the root. -/
def behind (s : Spot) (pieces : List String) : Spot :=
  match pieces with
  | "" :: _ :: _ => ⟨none, pieces⟩
  | _ => { s with names := s.names ++ pieces }

/-- Where the pieces of a path lead from a place, links replaced by what they say. Places that do
not exist are passed through as they are written. A link that is met again while it is being
followed ends the way, with the pieces that are left. At most so many links can be followed at a
time. -/
def resolve (files : Node) (cwd : List String) (links : Nat) (followed : List Spot) (s : Spot) :
    List String → Except Spot Spot
  | [] => .ok s
  | name :: rest =>
    if name = "" ∨ name = "." then resolve files cwd links followed s rest
    else if name = ".." then resolve files cwd links followed s.up rest
    else
      match files.get? ((s.child name).place cwd) with
      | some (.link target) =>
        match links with
        | 0 => .error ((s.child name).behind rest)
        | links' + 1 =>
          if followed.contains (s.child name) then .error ((s.child name).behind rest)
          else match resolve files cwd links' (s.child name :: followed) (s.startOf target)
              (piecesOf target) with
            | .error left => .error (left.behind rest)
            | .ok there => resolve files cwd (links' + 1) followed there rest
      | _ => resolve files cwd links followed (s.child name) rest
termination_by pieces => (links, pieces.length)

/-- The names from the root to a place whose own names may be empty, or dots: two dots are taken
together with the name before them. -/
def folded (cwd : List String) (s : Spot) : List String :=
  let start := match s.above with
    | none => []
    | some n => cwd.take (cwd.length - n)
  s.names.foldl (fun names name =>
    if name = "" ∨ name = "." then names
    else if name = ".." then names.dropLast else names ++ [name]) start

end Spot

end LinterSuite
