import LinterSuite.Keyed

/-!
# Files and directories

What a file system holds in one place: a file, a symbolic link, or a directory of named places.

## Main definitions

* `Node`: a place with all below it
* `Node.get?`: the place that names lead to, links not followed
* `Node.insert`, `Node.erase`: a place put in or taken out
* `Node.linkCount`: how many links there are

## Main results

* `Node.get?_nil`: no names lead to the place itself
-/

namespace LinterSuite

/-- A regular file. -/
structure FileData where
  content : List UInt8
  /-- When it was last written, in nanoseconds. -/
  mtime : Int
  executable : Bool
  deriving DecidableEq, Repr

/-- A place of a file system. -/
inductive Node where
  | file (data : FileData)
  | link (target : String)
  | dir (mtime : Int) (entries : List (String × Node))
  deriving Repr

namespace Node

instance : Inhabited Node := ⟨.dir 0 []⟩

/-- The named places of a directory. -/
def entries : Node → List (String × Node)
  | .dir _ es => es
  | _ => []

/-- The place that names lead to. -/
def get? : Node → List String → Option Node
  | n, [] => some n
  | .dir _ es, name :: rest =>
    match es.lookup name with
    | none => none
    | some n => get? n rest
  | _, _ :: _ => none

/-- The place with another put where names lead, and directories on the way made if there are none.
A file or link on the way is left alone. -/
def insert (time : Int) : Node → List String → Node → Node
  | _, [], new => new
  | .dir m es, name :: rest, new =>
    .dir m (Keyed.put es name (insert time ((es.lookup name).getD (.dir time [])) rest new))
  | n, _ :: _, _ => n

/-- The place without the one that names lead to. -/
def erase : Node → List String → Node
  | .dir m es, [name] => .dir m (Keyed.erase es name)
  | .dir m es, name :: rest =>
    match es.lookup name with
    | none => .dir m es
    | some n => .dir m (Keyed.put es name (erase n rest))
  | n, _ => n

/-- How many links there are in named places and below. -/
def linkCount : List (String × Node) → Nat
  | [] => 0
  | (_, .file _) :: rest => linkCount rest
  | (_, .link _) :: rest => linkCount rest + 1
  | (_, .dir _ es) :: rest => linkCount es + linkCount rest

@[simp] theorem get?_nil (n : Node) : n.get? [] = some n := by cases n <;> rfl

end Node

end LinterSuite
