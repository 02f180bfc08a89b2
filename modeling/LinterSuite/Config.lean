import LinterSuite.Config.Merge
import LinterSuite.Config.Settings
import LinterSuite.Grammar.Token

/-!
# Configurations

A configuration names the linters of a directory tree with their settings.

## Main definitions

* `ConfigError`: everything that can be wrong with a configuration
* `Config`: a checked configuration
* `Config.ofTable`: reading it from a merged document
* `Config.select`: some of its linters
* `Config.cachePath`, `LinterSettings.workDirFrom`: the directories that settings name
-/

namespace LinterSuite

/-- What is wrong with a configuration. -/
inductive ConfigError where
  /-- The explicit file does not exist. -/
  | noFile (path : Path)
  /-- A file cannot be read. -/
  | unreadable (path : Path) (reason : String)
  /-- A file is not a document. -/
  | unparsable (path : Path) (reason : String)
  /-- A document has sections of other names. -/
  | unknownSections (path : Path) (names : List String)
  /-- Two documents disagree on the kind of a key. -/
  | kindChange (change : KindChange)
  /-- The section of all linters is no table. -/
  | globalNotTable
  /-- The section of linters is no table. -/
  | lintersNotTable
  /-- A linter is no table. -/
  | linterNotTable (name : String)
  /-- A linter sets its name. -/
  | linterNamed (name : String)
  /-- A section has bad settings. -/
  | invalid (title : String) (findings : List Finding)
  /-- There are no linters of these names. -/
  | unknownLinters (names : List String)
  /-- A linter has a malformed grammar. -/
  | grammar (linter : String) (error : GrammarError)
  /-- A linter has no such directory to run in. -/
  | noWorkDir (linter : String) (path : Path)
  deriving DecidableEq, Repr

/-- The report of a bad configuration. -/
def ConfigError.message : ConfigError → String
  | noFile path => s!"Config file \"{path}\" does not exist"
  | unreadable path reason => s!"Cannot read config \"{path}\": {reason}"
  | unparsable path reason => s!"Cannot parse config \"{path}\": {reason}"
  | unknownSections path names => s!"Unknown section(s) in \"{path}\": " ++ ", ".intercalate names
  | kindChange change => change.message
  | globalNotTable => "[global] must be a table"
  | lintersNotTable => "[linter] must be a table of linter tables"
  | linterNotTable name => s!"[linter.{name}] must be a table"
  | linterNamed name => s!"[linter.{name}] must not set 'name'; the table key is the name"
  | invalid title findings =>
    s!"Invalid [{title}] section: " ++ "; ".intercalate (findings.map Finding.message)
  | unknownLinters names => "Unknown linter(s): " ++ ", ".intercalate names
  | grammar linter error => s!"linter '{linter}': " ++ error.message
  | noWorkDir linter path => s!"linter '{linter}': work_dir {path} is not a directory"

/-- A checked configuration. -/
structure Config where
  /-- The directory that relative settings start from. -/
  root : Path
  globals : GlobalSettings
  /-- In the order of declaration; their names differ. -/
  linters : List LinterSettings
  /-- The documents it was read from. -/
  sources : List Path
  deriving Repr

namespace Config

/-- The settings of the linters of a section, up to the first bad one. -/
def lintersOf : List (String × Value) → Except ConfigError (List LinterSettings)
  | [] => .ok []
  | (name, .table t) :: rest => do
    if (Table.get? t "name").isSome then .error (.linterNamed name)
    else match LinterSettings.ofTable name t with
      | .error findings => .error (.invalid s!"linter.{name}" findings)
      | .ok settings => return settings :: (← lintersOf rest)
  | (name, _) :: _ => .error (.linterNotTable name)

/-- The table of a section, empty if there is none. -/
def section? (data : Table) (key : String) : Option Table :=
  match data.get? key with
  | none => some []
  | some (.table t) => some t
  | some _ => none

/-- The configuration of a merged document. -/
def ofTable (root : Path) (sources : List Path) (data : Table) : Except ConfigError Config := do
  let some globalTable := section? data "global" | .error .globalNotTable
  let some linterTable := section? data "linter" | .error .lintersNotTable
  match GlobalSettings.ofTable globalTable with
  | .error findings => .error (.invalid "global" findings)
  | .ok globals =>
    let linters ← lintersOf linterTable
    return { root, globals, linters, sources }

/-- The names that occur, each once, in order of first occurrence. -/
def distinct : List String → List String
  | [] => []
  | s :: ss => s :: (distinct ss).filter (· != s)

/-- The configuration with the named linters alone, in order of declaration; with all of them if
none is named. -/
def select (c : Config) (names : List String) : Except ConfigError Config :=
  if names.isEmpty then .ok c
  else
    let unknown := (distinct names).filter fun n => !(c.linters.any (·.name == n))
    if unknown.isEmpty then
      .ok { c with linters := c.linters.filter fun l => names.contains l.name }
    else .error (.unknownLinters unknown)

/-- The directory of cache entries. -/
def cachePath (homes : Homes) (c : Config) : Except HomeError Path :=
  ((Path.ofString c.globals.cacheDir).expandHome homes).map c.root.join

end Config

/-- The directory a linter runs in: its own, taken from a root, or the root. -/
def LinterSettings.workDirFrom (homes : Homes) (root : Path) (s : LinterSettings) :
    Except HomeError Path :=
  match s.workDir with
  | none => .ok root
  | some dir =>
    if dir.isEmpty then .ok root
    else ((Path.ofString dir).expandHome homes).map root.join

end LinterSuite
