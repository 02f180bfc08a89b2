import LinterSuite.Config.Checked
import LinterSuite.Path

/-!
# Settings

What can be set for all linters, and what for each of them.

## Main definitions

* `GlobalSettings`, `LinterSettings`: the settings with their defaults
* `GlobalSettings.ofTable`, `LinterSettings.ofTable`: reading a section of a configuration
* `LinterSettings.passesFiles`: whether a linter is given its files as arguments
-/

namespace LinterSuite

/-- The directory of cache entries unless another is set. -/
def defaultCacheDir : String := ".multilint-cache"

/-- The settings of all linters. -/
structure GlobalSettings where
  excludes : List String
  cache : Bool
  cacheDir : String
  /-- How many linters may run at once. -/
  jobs : Option Int
  deriving DecidableEq, Repr

/-- The settings of one linter. -/
structure LinterSettings where
  name : String
  command : String
  options : List String
  workDir : Option String
  includes : List String
  excludes : List String
  /-- The grammars of its output. -/
  formats : List String
  /-- Compare file contents instead of times. -/
  checkHash : Bool
  excludeSubmodules : Bool
  /-- Run once for each file. -/
  singleFile : Bool
  /-- Seconds allowed for one run. -/
  timeout : Option Binary64
  deriving DecidableEq, Repr

namespace Table

/-- The setting of a key, or a default if the key is absent. -/
def setting {α : Type} (t : Table) (key : String) (default : α)
    (check : List String → Value → Checked α) : Checked α :=
  match t.get? key with
  | none => .ok default
  | some v => check [key] v

/-- The keys that are none of the known ones. -/
def unknown (t : Table) (known : List String) : Checked Unit :=
  let extra := t.keys.filter fun k => !known.contains k
  if extra.isEmpty then .ok () else .error (extra.map fun k => ⟨[k], .unexpected⟩)

/-- A text at a place. -/
def text (location : List String) (v : Value) : Checked String := Checked.at_ location v.toText

/-- A truth value at a place. -/
def boolean (location : List String) (v : Value) : Checked Bool :=
  Checked.at_ location v.toBoolean

/-- A list of texts at a place. -/
def texts (location : List String) (v : Value) : Checked (List String) := v.toTexts location

end Table

namespace GlobalSettings

/-- A number of jobs, at least one. -/
def jobsSetting (location : List String) (v : Value) : Checked (Option Int) :=
  Checked.at_ location do
    match v with
    | .nothing => return none
    | v =>
      let n ← v.toInteger
      if n < 1 then .error .belowOne else return some n

/-- The keys of the section. -/
def keys : List String := ["excludes", "cache", "cache_dir", "jobs"]

/-- The settings of a section. -/
def ofTable (t : Table) : Checked GlobalSettings :=
  (Checked.and
    ((((Checked.apply (.ok GlobalSettings.mk) (t.setting "excludes" [] Table.texts)).apply
      (t.setting "cache" true Table.boolean)).apply
      (t.setting "cache_dir" defaultCacheDir Table.text)).apply
      (t.setting "jobs" none jobsSetting))
    (t.unknown keys)).map (·.1)

end GlobalSettings

namespace LinterSettings

/-- A linter that is given files at all is given the ones it includes. -/
def passesFiles (s : LinterSettings) : Bool := !s.includes.isEmpty

/-- A command, which must say something. -/
def commandSetting (location : List String) (v : Value) : Checked String :=
  Checked.at_ location do
    let s ← v.toText
    if Text.isBlankText s then .error .emptyCommand else return s

/-- A directory, if one is named. -/
def workDirSetting (location : List String) (v : Value) : Checked (Option String) :=
  Checked.at_ location do
    match v with
    | .nothing => return none
    | v => return some (← v.toText)

/-- A time limit, above zero. -/
def timeoutSetting (location : List String) (v : Value) : Checked (Option Binary64) :=
  Checked.at_ location do
    match v with
    | .nothing => return none
    | v =>
      let x ← v.toNumber
      if x.isPositive then return some x else .error .notPositive

/-- The keys of the section. -/
def keys : List String :=
  ["name", "command", "options", "work_dir", "includes", "excludes", "formats", "check_hash",
    "exclude_submodules", "single_file", "timeout"]

/-- The command of a section, which must have one. -/
def command? (t : Table) : Checked String :=
  match t.get? "command" with
  | none => .error [⟨["command"], .missing⟩]
  | some v => commandSetting ["command"] v

/-- The settings of a section under a name. -/
def ofTable (name : String) (t : Table) : Checked LinterSettings :=
  (Checked.and
    ((((((((((Checked.apply (.ok (LinterSettings.mk name)) (command? t)).apply
      (t.setting "options" [] Table.texts)).apply
      (t.setting "work_dir" none workDirSetting)).apply
      (t.setting "includes" [] Table.texts)).apply
      (t.setting "excludes" [] Table.texts)).apply
      (t.setting "formats" [] Table.texts)).apply
      (t.setting "check_hash" false Table.boolean)).apply
      (t.setting "exclude_submodules" true Table.boolean)).apply
      (t.setting "single_file" false Table.boolean)).apply
      (t.setting "timeout" none timeoutSetting))
    (t.unknown keys)).map (·.1)

end LinterSettings

end LinterSuite
