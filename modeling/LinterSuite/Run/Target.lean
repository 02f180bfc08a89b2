import LinterSuite.Cache.Gate
import LinterSuite.Config
import LinterSuite.Execution.Failure
import LinterSuite.Grammar.Matching
import LinterSuite.Selection

/-!
# Targets

Before anything is run, the grammars and the directory of every linter are checked. What is fit to
be run is a target.

## Main definitions

* `RunFailure`: what ends a run before all outcomes are there
* `Target`: a linter that is fit to be run
* `FileTree.targets`: the targets of a configuration

## Main results

* `FileTree.targetsOf_append`: targets are found one after the other
-/

namespace LinterSuite

/-- What ends a run before all outcomes are there. -/
inductive RunFailure where
  | config (error : ConfigError)
  | home (error : HomeError)
  | path (error : FileTree.PathError)
  /-- A pattern cannot be read. -/
  | badGlob (error : GlobError)
  /-- A cache entry cannot be read at all. -/
  | entry (error : EntryError)
  | numeral (error : Text.NumeralTooLong)
  /-- Fewer than one job may be under way at once. -/
  | noWorkers
  /-- An argument of a command has a null character in it. -/
  | nullInArgument
  /-- A process cannot be waited for as long as it is allowed to take. -/
  | unwaited (error : WaitError)
  /-- The user ended the run. -/
  | interrupted
  deriving DecidableEq, Repr

/-- The report of a run in which no job may be under way. -/
def RunFailure.noWorkersMessage : String := "max_workers must be greater than 0"

/-- A selection that cannot be made ends the run. -/
def SelectionError.toRunFailure : SelectionError → RunFailure
  | badGlob e => .badGlob e
  | badPath e => .path e

/-- A cache that cannot be consulted ends the run. -/
def CacheError.toRunFailure : CacheError → RunFailure
  | entry e => .entry e
  | path e => .path e

/-- A linter that is fit to be run. -/
structure Target where
  settings : LinterSettings
  workDir : Path
  grammars : List Grammar
  /-- The digest of everything besides its files that goes into its invocation. -/
  fingerprint : String

/-- The name of the linter. -/
def Target.name (target : Target) : String := target.settings.name

namespace FileTree

variable (digest : Digest) (homes : Homes)

/-- The target of a linter below a root. -/
def target (t : FileTree) (root : Path) (s : LinterSettings) : Except RunFailure Target :=
  match Grammar.compileAll s.formats with
  | .error e => .error (.config (.grammar s.name e))
  | .ok grammars =>
    match s.workDirFrom homes root with
    | .error e => .error (.home e)
    | .ok workDir =>
      match t.ask isDir workDir with
      | .error e => .error (.path e)
      | .ok false => .error (.config (.noWorkDir s.name workDir))
      | .ok true =>
        match t.fingerprint digest s workDir with
        | .error e => .error (.path e)
        | .ok fingerprint => .ok { settings := s, workDir, grammars, fingerprint }

/-- The targets of some linters below a root, unless one of them is not fit to be run. -/
def targetsOf (t : FileTree) (root : Path) : List LinterSettings → Except RunFailure (List Target)
  | [] => .ok []
  | s :: rest => do
    let target ← t.target digest homes root s
    return target :: (← t.targetsOf root rest)

/-- The targets of a configuration. -/
def targets (t : FileTree) (c : Config) : Except RunFailure (List Target) :=
  t.targetsOf digest homes c.root c.linters

theorem targetsOf_append (t : FileTree) (root : Path) (xs ys : List LinterSettings) :
    t.targetsOf digest homes root (xs ++ ys) = (do
      let first ← t.targetsOf digest homes root xs
      let second ← t.targetsOf digest homes root ys
      return first ++ second) := by
  induction xs with
  | nil =>
    cases h : t.targetsOf digest homes root ys <;>
      simp [targetsOf, h, bind, Except.bind, pure, Except.pure]
  | cons s rest ih =>
    simp only [List.cons_append, targetsOf, ih]
    cases t.target digest homes root s <;> cases t.targetsOf digest homes root rest <;>
      cases t.targetsOf digest homes root ys <;>
      simp [bind, Except.bind, pure, Except.pure]

end FileTree

end LinterSuite
