import LinterSuite.CommandLine
import LinterSuite.Execution.Host
import LinterSuite.FileTree.Changes
import LinterSuite.Sha256

/-!
# The program

The current directory is read into a file tree together with the configuration files above it, the
command line is run on the tree, and what has changed is written back. The scripts of linters are
run by the library itself.

## Main definitions

* `main`: the program
-/

namespace LinterSuite.Program

/-- The time of a file in nanoseconds. -/
def nanoseconds (time : IO.FS.SystemTime) : Int := time.sec * Int.pow 10 9 + time.nsec.toNat

/-- A script that says what runs it. -/
def isScript (content : ByteArray) : Bool := content.toList.take 2 == Text.utf8 "#!"

/-- An entry of a directory with all below it; neither link nor device has one. -/
partial def readEntry (entry : IO.FS.DirEntry) : IO (Option (String × Node)) := do
  let about ← entry.path.symlinkMetadata
  let mtime := nanoseconds about.modified
  match about.type with
  | .file =>
    let content ← IO.FS.readBinFile entry.path
    let data : FileData := { content := content.toList, mtime, executable := isScript content }
    return some (entry.fileName, .file data)
  | .symlink =>
    return some (entry.fileName, .link (← IO.FS.realPath entry.path).toString)
  | .dir =>
    let entries ← (← entry.path.readDir).toList.filterMapM readEntry
    return some (entry.fileName, .dir mtime entries)
  | .other => return none

/-- The tree with the configuration file of a directory, if it has one. -/
def withConfig (t : FileTree) (dir : Path) : IO FileTree := do
  let file := dir.child configFileName
  try
    let content ← IO.FS.readBinFile file.toString
    return ((t.write file content.toList).toOption).getD t
  catch _ => return t

/-- The current directory with the configuration files above it. -/
def readTree : IO FileTree := do
  let here ← IO.currentDir
  let dir := Path.ofString here.toString
  let entries ← (← here.readDir).toList.filterMapM readEntry
  let empty : FileTree := { root := .dir 0 [], cwd := dir.parts, clock := 0 }
  let t := (empty.makeDirs dir).1
  let t ← dir.ancestry.foldlM withConfig t
  let root := t.root.insert 0 dir.parts (.dir 0 entries)
  let clock := (Node.filesOf [] entries).foldl (fun latest f => max latest f.2.mtime) 0
  return { t with root, clock := clock + 1 }

/-- Writes what has changed. -/
def writeChanges (before after : FileTree) : IO Unit := do
  for (place, data) in after.writtenSince before do
    let file : Path := ⟨.root, place⟩
    IO.FS.createDirAll file.parent.toString
    IO.FS.writeBinFile file.toString ⟨data.content.toArray⟩
  for place in after.removedSince before do
    IO.FS.removeFile (Path.toString ⟨.root, place⟩)

/-- What the program is made with. -/
def surroundings : IO (CommandLine.Surroundings Unit) := do
  let home := (← IO.getEnv "HOME").getD "/"
  let searchPath := (← IO.getEnv "PATH").getD ""
  let homes : Homes := ⟨home, [("root", "/root")]⟩
  let env : Environment :=
    { homes, searchPath, argumentLimit := Nat.pow 2 21
      bindings := [("HOME", home), ("PATH", searchPath)] }
  return {
    setup := { digest := Sha256.hex, homes, runner := hostRunner env, schedule := inOrder }
    usualJobs := 4
    terminal := ← (← IO.getStdout).isTty }

/-- The status of an ending, and what is to be said about it. -/
def ending : CommandLine.Exit → Nat × String
  | .status code => (code, "")
  | .usageError => (CommandLine.fatalStatus, CommandLine.usage)
  | .loadStopped _ | .runStopped _ => (1, s!"{CommandLine.programName}: stopped\n")

end LinterSuite.Program

open LinterSuite LinterSuite.Program in
/-- The program. -/
def main (words : List String) : IO UInt32 := do
  let t ← readTree
  let finish := CommandLine.run (← surroundings) words t ()
  let (status, last) := ending finish.exit
  (← IO.getStdout).putStr finish.stdout
  (← IO.getStderr).putStr (finish.stderr ++ last)
  writeChanges t finish.tree
  return UInt32.ofNat status
