import LinterSuite.Config
import LinterSuite.FileTree.Basic
import LinterSuite.Text.Order
import LinterSuite.Text.Utf8
import LinterSuite.Toml.Document

/-!
# Configuration files

Configurations are TOML documents with a section for all linters and a section with a table for each
of them. The files that count for a directory are those of the directory and of all directories
above it, the ones above laid below, unless one file is named explicitly.

## Main definitions

* `LoadError`: what keeps a configuration from being loaded
* `FileTree.readConfig`: the document of one file
* `FileTree.configFiles`: the files that count for a directory
* `FileTree.mergeConfigs`: several documents merged, with the files that were begun
* `ConfigRequest`, `FileTree.resolveConfig`: the configuration for a directory

## Main results

* `FileTree.mergeConfigs_nil`: no files change nothing
-/

namespace LinterSuite

/-- The name of configuration files. -/
def configFileName : String := "multilint.toml"

/-- What keeps a configuration from being loaded. -/
inductive LoadError where
  | config (error : ConfigError)
  /-- A path cannot be worked with. -/
  | path (error : FileTree.PathError)
  /-- The bytes of a file are no text. -/
  | notText
  | numeral (error : Text.NumeralTooLong)
  /-- The values of a document are nested too deeply. -/
  | tooDeep (at_ : Text.Nesting)
  deriving DecidableEq, Repr

/-- The sections that a document may have. -/
def configSections : List String := ["global", "linter"]

/-- How a document is named to people. -/
def describeConfig (p : Path) : String := s!"TOML configuration at {p}"

namespace FileTree

/-- The document of a file. -/
def readConfig (t : FileTree) (p : Path) : Except LoadError Table :=
  match t.read p with
  | .error .nullInPath => .error (.path .nullInPath)
  | .error e => .error (.config (.unreadable p (e.message ++ ": " ++ Text.quoted p.toString)))
  | .ok bytes =>
    match Text.ofUtf8? bytes with
    | none => .error .notText
    | some s =>
      match Toml.read s with
      | .error .malformed => .error (.config (.unparsable p "not a TOML document"))
      | .error (.numeral e) => .error (.numeral e)
      | .error (.tooDeep n) => .error (.tooDeep n)
      | .ok data =>
        let unknown := data.keys.filter fun k => !configSections.contains k
        if unknown.isEmpty then .ok data
        else .error (.config (.unknownSections p (Text.sorted unknown)))

/-- The files that count for an absolute directory, the one nearest to the root first. -/
def configFilesFrom (t : FileTree) (dir : Path) : Except PathError (List Path) :=
  ((dir.ancestry.map (·.child configFileName)).filterM (t.ask isFile)).map List.reverse

/-- The files that count for a directory, the one nearest to the root first. -/
def configFiles (t : FileTree) (dir : Path) : Except PathError (List Path) := do
  t.configFilesFrom (← t.realPath dir)

/-- The documents of some files laid over a table, and the files that were begun. -/
def mergeConfigs (t : FileTree) (base : Table) : List Path → List Path × Except LoadError Table
  | [] => ([], .ok base)
  | p :: rest =>
    match t.readConfig p with
    | .error e => ([p], .error e)
    | .ok later =>
      match Table.merge p.toString base later with
      | .error e => ([p], .error (.config (.kindChange e)))
      | .ok merged =>
        let (begun, result) := t.mergeConfigs merged rest
        (p :: begun, result)

@[simp] theorem mergeConfigs_nil (t : FileTree) (base : Table) :
    t.mergeConfigs base [] = ([], .ok base) := rfl

end FileTree

/-- What configuration is wanted. -/
structure ConfigRequest where
  /-- The directory whose files count. -/
  start : Path
  /-- A file that counts instead. -/
  file : Option Path
  /-- The directory that settings start from, if it is not the obvious one. -/
  root : Option Path
  deriving Repr

/-- The places of a request, all absolute. -/
structure ConfigPlaces where
  start : Path
  file : Option Path
  root : Path
  deriving Repr

namespace FileTree

/-- An optional path made absolute. -/
def realPath? (t : FileTree) : Option Path → Except PathError (Option Path)
  | none => .ok none
  | some p => (t.realPath p).map some

/-- The places of a request: settings start from the wanted root, or else from the directory of the
explicit file, or else from the start. -/
def configPlaces (t : FileTree) (r : ConfigRequest) : Except PathError ConfigPlaces := do
  let start ← t.realPath r.start
  let file ← t.realPath? r.file
  let root ← t.realPath? r.root
  return { start, file, root := root.getD ((file.map Path.parent).getD start) }

/-- The files that count in some places. -/
def configSources (t : FileTree) (places : ConfigPlaces) : Except LoadError (List Path) :=
  match places.file with
  | none => (t.configFilesFrom places.start).mapError .path
  | some p =>
    match t.ask isFile p with
    | .ok true => .ok [p]
    | .ok false => .error (.config (.noFile p))
    | .error e => .error (.path e)

/-- The configuration of some files, and the files that were begun. -/
def loadConfigs (t : FileTree) (root : Path) (files : List Path) :
    List Path × Except LoadError Config :=
  let (begun, merged) := t.mergeConfigs [] files
  (begun, do (Config.ofTable root files (← merged)).mapError .config)

/-- The configuration that is wanted. -/
def resolveConfig (t : FileTree) (r : ConfigRequest) : Except LoadError Config := do
  let places ← (t.configPlaces r).mapError .path
  let files ← t.configSources places
  (t.loadConfigs places.root files).2

end FileTree

end LinterSuite
