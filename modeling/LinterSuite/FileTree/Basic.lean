import LinterSuite.FileTree.Spot
import LinterSuite.Text.Quoted

/-!
# File trees

A file tree is the state of a file system with a current directory, in which all names are texts.
Paths lead through it as they do in an operating system: links are followed, and two dots go to the
directory above.

## Main definitions

* `FileTree`: the places from the root, the current directory, and a clock
* `FileTree.locate`: where a path leads
* `FileTree.stat`, `FileTree.lstat`: what is there, with a final link followed or not
* `FileTree.realPath`: the absolute path without links and dots
* `FileTree.write`, `FileTree.makeDirs`, `FileTree.remove`: changes

## Main results

* `FileTree.locateFrom_nil`: no components lead nowhere else
-/

namespace LinterSuite

/-- Why a path leads nowhere, or nothing can be done there. -/
inductive FileError where
  | noEntry
  | notDirectory
  | isDirectory
  | exists_
  /-- Links lead round in a circle. -/
  | loop
  /-- A name, or a whole path, has more bytes than any that leads to something. -/
  | nameTooLong
  /-- No path holds a null character. -/
  | nullInPath
  deriving DecidableEq, Repr

/-- The description that an operating system gives. -/
def FileError.message : FileError → String
  | noEntry => "[Errno 2] No such file or directory"
  | notDirectory => "[Errno 20] Not a directory"
  | isDirectory => "[Errno 21] Is a directory"
  | exists_ => "[Errno 17] File exists"
  | loop => "[Errno 40] Too many levels of symbolic links"
  | nameTooLong => "[Errno 36] File name too long"
  | nullInPath => "embedded null byte"

/-- A file system with a current directory. -/
structure FileTree where
  root : Node
  /-- The names from the root to the current directory, none of them a link. -/
  cwd : List String
  /-- The time of the next change. -/
  clock : Int
  deriving Repr

namespace FileTree

/-- The most links that one path may lead through. -/
def linkLimit : Nat := 40

/-- The most bytes that a name may have. -/
def nameLimit : Nat := 255

/-- The most bytes that a path may have. -/
def pathLimit : Nat := 4095

/-- The components that the text of a link leads along. A text that ends with a separator or a dot
leads to a directory and nothing else; the dot at the end says so. -/
def linkSteps (target : String) : List String :=
  let parts := (Path.ofString target).parts
  match (Text.pieces '/' target.toList).getLast? with
  | some [] | some ['.'] => parts ++ ["."]
  | _ => parts

/-- Follows components from the directory at `place`. The last one need not exist; if it is a link,
it is followed on request. -/
def locateFrom (root : Node) (follow : Bool) (links : Nat) (place : List String) :
    List String → Except FileError (List String)
  | [] => .ok place
  | name :: rest =>
    match root.get? place with
    | some (.dir _ es) =>
      if name = "." then locateFrom root follow links place rest
      else if name = ".." then locateFrom root follow links place.dropLast rest
      else if nameLimit < name.utf8ByteSize then .error .nameTooLong
      else match es.lookup name with
        | none => if rest.isEmpty then .ok (place ++ [name]) else .error .noEntry
        | some (.link target) =>
          if rest.isEmpty && !follow then .ok (place ++ [name])
          else match links with
            | 0 => .error .loop
            | links + 1 =>
              locateFrom root follow links
                (if (Path.ofString target).isAbsolute then [] else place)
                (linkSteps target ++ rest)
        | some _ => locateFrom root follow links (place ++ [name]) rest
    | some _ => .error .notDirectory
    | none => .error .noEntry
termination_by components => (links, components.length)

/-- Where a path leads; a path with a null character leads nowhere, and neither does one that is too
long. -/
def locate (t : FileTree) (follow : Bool) (p : Path) : Except FileError (List String) :=
  match p.hasNull with
  | true => .error .nullInPath
  | false =>
    if pathLimit < p.toString.utf8ByteSize then .error .nameTooLong
    else locateFrom t.root follow linkLimit (if p.isAbsolute then [] else t.cwd) p.parts

/-- What is at a path. -/
def lookup (t : FileTree) (follow : Bool) (p : Path) : Except FileError Node := do
  match t.root.get? (← t.locate follow p) with
  | some n => return n
  | none => .error .noEntry

/-- What is at a path, final links followed. -/
def stat (t : FileTree) (p : Path) : Except FileError Node := t.lookup true p

/-- What is at a path, a final link itself. -/
def lstat (t : FileTree) (p : Path) : Except FileError Node := t.lookup false p

/-- A path that leads to something. -/
def pathExists (t : FileTree) (p : Path) : Bool := (t.stat p).toBool

/-- A path that leads to a regular file. -/
def isFile (t : FileTree) (p : Path) : Bool :=
  match t.stat p with
  | .ok (.file _) => true
  | _ => false

/-- A path that leads to a directory. -/
def isDir (t : FileTree) (p : Path) : Bool :=
  match t.stat p with
  | .ok (.dir ..) => true
  | _ => false

/-- A path that leads to a file that can be run. -/
def isRunnable (t : FileTree) (p : Path) : Bool :=
  match t.stat p with
  | .ok (.file data) => data.executable
  | _ => false

/-- The bytes of the file at a path. -/
def read (t : FileTree) (p : Path) : Except FileError (List UInt8) := do
  match ← t.stat p with
  | .file data => return data.content
  | .dir .. => .error .isDirectory
  | .link _ => .error .loop

/-- When the file or directory at a path was last written, and its size. -/
def times (t : FileTree) (p : Path) : Except FileError (Int × Nat) := do
  match ← t.stat p with
  | .file data => return (data.mtime, data.content.length)
  | .dir mtime _ => return (mtime, 4096)
  | .link _ => .error .loop

/-! ### Paths that nothing can be asked about -/

/-- Why a path cannot be worked with. -/
inductive PathError where
  /-- Links lead round in a circle; the path still holds one of them. -/
  | linkLoop (path : Path)
  | nameTooLong (path : Path)
  | nullInPath
  deriving DecidableEq, Repr

/-- The report of a path that cannot be worked with. -/
def PathError.message : PathError → String
  | linkLoop path => "Symlink loop from " ++ Text.quoted path.toString
  | nameTooLong path => FileError.nameTooLong.message ++ ": " ++ Text.quoted path.toString
  | nullInPath => FileError.nullInPath.message

/-- The answer to a question about what is at a path. Where there is nothing the answer is no, but a
path that is too long cannot be asked about. -/
def ask (t : FileTree) (question : FileTree → Path → Bool) (p : Path) : Except PathError Bool :=
  match t.stat p with
  | .error .nameTooLong => .error (.nameTooLong p)
  | _ => .ok (question t p)

/-! ### Absolute paths without links -/

/-- The most links that can be followed at a time: each goes by one name from the root, and by one
for every directory above the current one. -/
def linkNames (t : FileTree) : Nat := Node.linkCount t.root.entries * (t.cwd.length + 2)

/-- The absolute path that leads to the same place without links and dots. -/
def realPath (t : FileTree) (p : Path) : Except PathError Path :=
  match p.hasNull with
  | true => .error .nullInPath
  | false =>
    match Spot.resolve t.root t.cwd t.linkNames [] (if p.isAbsolute then .root else .here)
        p.parts with
    | .ok s => .ok ⟨.root, s.place t.cwd⟩
    | .error left =>
      let p : Path := ⟨.root, left.folded t.cwd⟩
      match t.stat p with
      | .error .loop => .error (.linkLoop p)
      | _ => .ok p

/-! ### Changes -/

/-- The tree with a new directory where a path leads. -/
def makeDir (t : FileTree) (p : Path) : Except FileError FileTree := do
  let place ← t.locate false p
  match t.root.get? place with
  | some _ => .error .exists_
  | none => return { t with root := t.root.insert t.clock place (.dir t.clock []) }

/-- The tree with a directory where a path leads, new or not. -/
def ensureDir (t : FileTree) (p : Path) : FileTree × Except FileError Unit :=
  match t.makeDir p with
  | .ok made => (made, .ok ())
  | .error e => (t, if e != .noEntry && t.isDir p then .ok () else .error e)

/-- The tree with a directory where a path leads, and the directories above it. What was made stays
even if the rest cannot be. -/
def makeDirs (t : FileTree) (p : Path) : FileTree × Except FileError Unit :=
  match t.ensureDir p with
  | (made, .error .noEntry) =>
    if p.parts.length = 0 then (made, .error .noEntry)
    else match t.makeDirs p.parent with
      | (above, .ok ()) => above.ensureDir p
      | (above, .error e) => (above, .error e)
  | result => result
termination_by p.parts.length
decreasing_by all_goals simp only [Path.parent, List.length_dropLast]; omega

/-- The tree with something put where a path leads, and the directories above it made. -/
def place (t : FileTree) (p : Path) (n : Node) : Except FileError FileTree := do
  let (t, made) := t.makeDirs p.parent
  made
  let parent ← t.locate true p.parent
  return { t with root := t.root.insert t.clock (parent ++ [p.name]) n }

/-- The tree with a file written where a path leads, a final link followed. A file that was there
keeps its permission. -/
def write (t : FileTree) (p : Path) (content : List UInt8) : Except FileError FileTree := do
  let target ← t.locate true p
  match t.root.get? target.dropLast with
  | some (.dir ..) =>
    let write (executable : Bool) : FileTree :=
      let data : FileData := { content, mtime := t.clock, executable }
      { t with root := t.root.insert t.clock target (.file data), clock := t.clock + 1 }
    match t.root.get? target with
    | some (.dir ..) => .error .isDirectory
    | some (.file old) => return write old.executable
    | _ => return write false
  | some _ => .error .notDirectory
  | none => .error .noEntry

/-- The tree with another time at the file or directory where a path leads. -/
def touch (t : FileTree) (p : Path) (mtime : Int) : Except FileError FileTree := do
  let target ← t.locate true p
  match t.root.get? target with
  | some (.file data) =>
    return { t with root := t.root.insert t.clock target (.file { data with mtime }) }
  | some (.dir _ es) => return { t with root := t.root.insert t.clock target (.dir mtime es) }
  | _ => .error .noEntry

/-- The tree without what a path leads to, a final link itself. -/
def remove (t : FileTree) (p : Path) : Except FileError FileTree := do
  let target ← t.locate false p
  match t.root.get? target with
  | some _ => return { t with root := t.root.erase target }
  | none => .error .noEntry

theorem locateFrom_nil (root : Node) (follow : Bool) (links : Nat) (place : List String) :
    locateFrom root follow links place [] = .ok place := by
  simp [locateFrom]

end FileTree

end LinterSuite
