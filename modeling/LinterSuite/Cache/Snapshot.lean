import LinterSuite.Config.Settings
import LinterSuite.FileTree.Basic
import LinterSuite.Text.Utf8

/-!
# Snapshots of files

Two runs are compared by digests of byte streams: one of everything besides the files that goes into
an invocation, one of the paths of the files, one of their contents. Each field of a stream is
closed by a null byte.

## Main definitions

* `Digest`: a digest of byte sequences
* `LinterSettings.fingerprintStream`, `Path.stream`, `FileTree.contentStream`: the streams
* `Snapshot`, `FileTree.snapshot`: the state of some files
* `FileTree.snapshotFault?`: what keeps it from being taken

## Main results

* `fieldStream_append`: streams of lists of fields are concatenations
-/

namespace LinterSuite

/-- A digest of byte sequences. -/
abbrev Digest := List UInt8 → String

/-- A field closed by a null byte. -/
def closedField (bytes : List UInt8) : List UInt8 := bytes ++ [0]

/-- Some texts, each closed by a null byte. -/
def fieldStream (fields : List String) : List UInt8 :=
  fields.flatMap fun f => closedField (Text.utf8 f)

theorem fieldStream_append (xs ys : List String) :
    fieldStream (xs ++ ys) = fieldStream xs ++ fieldStream ys := by
  simp [fieldStream]

/-- The name of a truth value in a stream. -/
def flagText (b : Bool) : String := if b then "True" else "False"

/-- The fields of everything besides the files that goes into an invocation in a directory. -/
def LinterSettings.fingerprintFields (s : LinterSettings) (workDir : Path) : List String :=
  s.command :: s.options ++ "::" :: s.formats ++
    ["::", workDir.toString, flagText s.singleFile, flagText s.checkHash]

/-- The stream of everything besides the files that goes into an invocation in a directory. -/
def LinterSettings.fingerprintStream (s : LinterSettings) (workDir : Path) : List UInt8 :=
  fieldStream (s.fingerprintFields workDir)

/-- The stream of some paths. -/
def Path.stream (files : List Path) : List UInt8 := fieldStream (files.map Path.toString)

/-- The state of some files. -/
structure Snapshot where
  filesDigest : String
  /-- The latest time of them, zero if there are none. -/
  latestMtime : Int
  /-- Present if contents are compared. -/
  contentDigest : Option String
  deriving DecidableEq, Repr

namespace FileTree

/-- The digest of everything besides the files that goes into an invocation. -/
def fingerprint (digest : Digest) (t : FileTree) (s : LinterSettings) (workDir : Path) :
    Except PathError String := do
  return digest (s.fingerprintStream (← t.realPath workDir))

/-- The stream of the paths of some files with their contents. -/
def contentStream (t : FileTree) : List Path → Except FileError (List UInt8)
  | [] => .ok []
  | p :: files => do
    let content ← t.read p
    let rest ← contentStream t files
    return closedField (Text.utf8 p.toString) ++ closedField content ++ rest

/-- The times of some files. -/
def mtimes (t : FileTree) (files : List Path) : Except FileError (List Int) :=
  files.mapM fun p => (t.times p).map (·.1)

/-- The latest of some times, zero if there are none. -/
def latest : List Int → Int
  | [] => 0
  | m :: ms => ms.foldl max m

/-- The state of some files, or what keeps it from being taken. -/
def snapshotOrError (digest : Digest) (t : FileTree) (files : List Path) (checkHash : Bool) :
    Except FileError Snapshot := do
  let times ← t.mtimes files
  let contentDigest ←
    if checkHash then do pure (some (digest (← t.contentStream files))) else pure none
  return { filesDigest := digest (Path.stream files), latestMtime := latest times, contentDigest }

/-- The state of some files; none if one of them cannot be read. A path that no file can have is an
error. -/
def snapshot (digest : Digest) (t : FileTree) (files : List Path) (checkHash : Bool) :
    Except PathError (Option Snapshot) :=
  match t.snapshotOrError digest files checkHash with
  | .ok s => .ok (some s)
  | .error .nullInPath => .error .nullInPath
  | .error _ => .ok none

/-- The first of some files that cannot be read, with the reason: times are asked for before
contents. -/
def snapshotFault? (t : FileTree) (files : List Path) (checkHash : Bool) :
    Option (Path × FileError) :=
  let fault {α : Type} (ask : Path → Except FileError α) (p : Path) : Option (Path × FileError) :=
    match ask p with
    | .ok _ => none
    | .error e => some (p, e)
  files.findSome? (fault t.times) <|>
    if checkHash then files.findSome? (fault t.read) else none

end FileTree

end LinterSuite
