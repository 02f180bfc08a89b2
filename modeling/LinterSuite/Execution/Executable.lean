import LinterSuite.Config
import LinterSuite.Execution.Failure
import LinterSuite.FileTree.Basic

/-!
# Finding executables

A command with a separator in it is a path, taken from the working directory. A bare name is looked
for in the directories of a search path.

## Main definitions

* `Environment`: what the surroundings of the program supply
* `RunError`: what keeps a command from being run to its end
* `FileTree.executable`: the file that a command runs

## Main results

* `FileTree.search?_nil`: no directory holds nothing
-/

namespace LinterSuite

/-- What the surroundings of the program supply. -/
structure Environment where
  homes : Homes
  /-- Directories with colons between them. -/
  searchPath : String
  /-- All variables with their values. -/
  bindings : List (String × String)
  /-- The space for the arguments of a command and its variables. -/
  argumentLimit : Int
  deriving Repr

/-- What keeps a command from being run to its end. -/
inductive RunError where
  | failed (failure : ExecutionFailure)
  | home (error : HomeError)
  | path (error : FileTree.PathError)
  /-- An argument has a null character in it. -/
  | nullInArgument
  /-- A process cannot be waited for as long as it is allowed to take. -/
  | unwaited (error : WaitError)
  /-- The user ended the whole run. -/
  | interrupted
  deriving DecidableEq, Repr

/-- A failure with a reason in words, before anything was written. -/
def RunError.because (reason : String) (command : List String) : RunError :=
  .failed ⟨.reason reason, command, ""⟩

namespace FileTree

/-- A name in a directory as text; the directory of no name is the current one. -/
def inDirectory (dir name : String) : String :=
  if dir.isEmpty then name
  else if dir.toList.getLast? = some '/' then dir ++ name
  else dir ++ "/" ++ name

/-- The first file of a name in some directories that can be run. -/
def search? (t : FileTree) (name : String) (dirs : List String) : Option String :=
  (dirs.map fun dir => inDirectory dir name).find? fun file => t.isRunnable (Path.ofString file)

@[simp] theorem search?_nil (t : FileTree) (name : String) : t.search? name [] = none := rfl

/-- The file of a bare name on a search path. No file has the empty name or is called a dot, and an
empty search path has no directories. -/
def onSearchPath? (t : FileTree) (searchPath name : String) : Option String :=
  if name.isEmpty ∨ name = "." ∨ searchPath.isEmpty then none
  else t.search? name ((Text.pieces ':' searchPath.toList).map String.ofList)

/-- The file that a command runs in a working directory. -/
def executable (t : FileTree) (env : Environment) (command : String) (workDir : Path) :
    Except RunError String :=
  if command.toList.contains '/' then
    match (Path.ofString command).expandHome env.homes with
    | .error e => .error (.home e)
    | .ok p =>
      let p := workDir.join p
      match t.ask isRunnable p with
      | .error e => .error (.path e)
      | .ok true => .ok p.toString
      | .ok false => .error (.because s!"Executable '{command}' was not found" [command])
  else match t.onSearchPath? env.searchPath command with
    | some file => .ok file
    | none => .error (.because s!"Executable '{command}' was not found on PATH" [command])

end FileTree

end LinterSuite
