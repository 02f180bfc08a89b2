import LinterSuite.FileTree.Basic
import LinterSuite.Text.Utf8

/-!
# Interpreters of scripts

A script names its interpreter on its first line, behind a number sign and an exclamation mark. A
file without such a line is no program.

## Main definitions

* `Shell.interpreter?`: the interpreter that a file names
* `Shell.StartFault`: why a file cannot be started
* `Shell.startFault?`: the fault of a file with a certain content
-/

namespace LinterSuite.Shell

/-- Spaces and tabs. -/
def isInlineSpace (c : Char) : Bool := c == ' ' || c == '\t'

/-- The interpreter and its argument that a file names. -/
def interpreter? (content : List UInt8) : Option (String × Option String) :=
  match content with
  | 35 :: 33 :: rest =>
    let line := (Text.ofUtf8Lossy (rest.takeWhile (· != 10))).toList
    let line := ((line.dropWhile isInlineSpace).reverse.dropWhile isInlineSpace).reverse
    let name := line.takeWhile (!isInlineSpace ·)
    let argument := (line.drop name.length).dropWhile isInlineSpace
    if name.isEmpty then none
    else some (String.ofList name, if argument.isEmpty then none else some (String.ofList argument))
  | _ => none

/-- The shells that scripts are run by. -/
def shells : List String := ["/bin/sh", "/usr/bin/sh", "/bin/dash", "/usr/bin/dash", "/bin/bash",
  "/usr/bin/bash"]

/-- An interpreter that is a shell, or that looks one up. -/
def isShell : String × Option String → Bool
  | (name, argument) =>
    shells.contains name ||
      (name == "/usr/bin/env" && argument.any fun a => ["sh", "dash", "bash"].contains a)

/-- Why a file cannot be started. -/
inductive StartFault where
  /-- It, or its interpreter, is not reached. -/
  | unreached (error : FileError)
  | denied
  /-- It is no program. -/
  | noProgram
  deriving DecidableEq, Repr

namespace StartFault

/-- The description that an operating system gives. -/
def message : StartFault → String
  | unreached e => e.message
  | denied => "[Errno 13] Permission denied"
  | noProgram => "[Errno 8] Exec format error"

/-- There is nothing to be started. -/
def isAbsence : StartFault → Bool
  | unreached .noEntry | unreached .notDirectory => true
  | _ => false

end StartFault

/-- The fault of a file with a certain content. -/
def startFault? (t : FileTree) (content : List UInt8) : Option StartFault :=
  match interpreter? content with
  | none => some .noProgram
  | some i =>
    if isShell i then none
    else match t.stat (Path.ofString i.1) with
      | .ok (.file data) => some (if data.executable then .noProgram else .denied)
      | .ok _ => some .denied
      | .error e => some (.unreached e)

end LinterSuite.Shell
