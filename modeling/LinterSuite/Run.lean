import LinterSuite.Run.Pool

/-!
# Runs

A run checks all linters of a configuration, selects their files, runs those that need it, and
reports the outcomes in order of declaration.

## Main definitions

* `RunSetup`, `RunOptions`: what a run is made with, and what can be asked of it
* `FileTree.run`: a whole run
* `RunResult.exitStatus`: the exit status of a run

## Main results

* `RunOptions.storeFor_empty`: a store in memory with nothing in it is as good as none
-/

namespace LinterSuite

/-- What a run is made with. -/
structure RunSetup (σ : Type) where
  digest : Digest
  homes : Homes
  runner : Runner σ
  /-- The order in which so many targets are looked at and their jobs take their steps. -/
  schedule : Nat → List Turn

/-- What can be asked of a run. -/
structure RunOptions where
  /-- How many jobs may be under way at once; zero leaves it to the configuration. -/
  jobs : Option Int
  /-- The same if the configuration leaves it open too. -/
  usualJobs : Int
  /-- Where records are kept. -/
  store : Option CacheStore

/-- How many jobs may be under way at once. -/
def RunOptions.jobCount (options : RunOptions) (c : Config) : Int :=
  ((options.jobs.filter (· != 0)) <|> c.globals.jobs).getD options.usualJobs

/-- The store of a configuration that keeps its cache in a directory. -/
def Config.ownStore (c : Config) (cacheDir : Path) : CacheStore :=
  if c.globals.cache then .directory cacheDir else .memory []

/-- The store of a run: the one asked for if there is something in it, or else the one of the
configuration. -/
def RunOptions.storeFor (options : RunOptions) (c : Config) (cacheDir : Path) : CacheStore :=
  (options.store.filter fun s => !s.isEmptyMemory).getD (c.ownStore cacheDir)

theorem RunOptions.storeFor_empty (options : RunOptions) (c : Config) (cacheDir : Path) :
    { options with store := some (.memory []) }.storeFor c cacheDir =
      { options with store := none }.storeFor c cacheDir := rfl

/-- The terms on which the linters of a configuration are run. -/
def RunSetup.terms {σ : Type} (setup : RunSetup σ) (jobCount : Int) (c : Config) (skipped : Path) :
    Terms σ :=
  { digest := setup.digest, runner := setup.runner, skipped := [skipped]
    globalExcludes := c.globals.excludes, workers := jobCount.toNat }

/-- The outcomes one after the other, as they are reported. -/
def Outcome.reportEvents (outcomes : List Outcome) : List Event :=
  outcomes.flatMap fun o => [.started o.program, .finished o]

/-- What follows on the last outcome that is reported. -/
def closingEvents (count : Nat) : Option RunFailure → List Event
  | none => [.completed count]
  | some .interrupted => [.terminated, .terminated]
  | some _ => []

namespace Pool

variable {σ : Type}

/-- What a pool comes to: one outcome for every target, unless something is wrong with one of them
or a job did not end well. -/
def outcomes (p : Pool σ) : Except RunFailure (List Outcome) :=
  match p.failure, p.collect with
  | some e, _ => .error e
  | none, (_, some e) => .error e
  | none, (outcomes, none) => .ok outcomes

/-- What is reported of a pool. Nothing is if something is wrong with a target. -/
def closing (p : Pool σ) : List Event :=
  match p.failure, p.collect with
  | some _, _ => []
  | none, (outcomes, failure) =>
    Outcome.reportEvents outcomes ++ closingEvents outcomes.length failure

end Pool

/-- What a run comes to. -/
structure RunResult (σ : Type) where
  state : RunState σ
  /-- The store that was asked for, as it is now. -/
  store : Option CacheStore
  outcomes : Except RunFailure (List Outcome)

namespace RunResult

variable {σ : Type}

/-- The exit status of a run whose linters all passed, or not. -/
def statusOf (outcomes : List Outcome) : Nat := if anyFailed outcomes then 1 else 0

/-- The exit status of a run. -/
def exitStatus (r : RunResult σ) : Except RunFailure Nat := r.outcomes.map statusOf

end RunResult

namespace FileTree

/-- What is known of a configuration before anything is run: its targets, the directory of its
cache, and the same without links. There must be room for a job. -/
def prepare (digest : Digest) (homes : Homes) (t : FileTree) (jobCount : Int) (c : Config) :
    Except RunFailure (List Target × Path × Path) := do
  let targets ← t.targets digest homes c
  let cacheDir ← (c.cachePath homes).mapError .home
  let skipped ← (t.realPath cacheDir).mapError .path
  if jobCount ≤ 0 then .error .noWorkers else return (targets, cacheDir, skipped)

variable {σ : Type}

/-- The pool of some targets after all its turns. -/
def finalPool (setup : RunSetup σ) (jobCount : Int) (c : Config) (skipped : Path)
    (targets : List Target) (s : RunState σ) : Pool σ :=
  let opening := Event.noted .run s!"running {targets.length} linter(s) with {jobCount} job(s)"
  (Pool.fresh targets (s.say [opening])).run (setup.terms jobCount c skipped)
    (setup.schedule targets.length)

/-- The rest of a run once the targets are found and there is a store. If something is wrong with a
target, the jobs of the targets before it are run all the same. -/
def runTargets (setup : RunSetup σ) (jobCount : Int) (c : Config) (skipped : Path)
    (targets : List Target) (s : RunState σ) : RunState σ × Except RunFailure (List Outcome) :=
  let pool := finalPool setup jobCount c skipped targets s
  ({ pool.state with log := pool.state.log ++ pool.closing }, pool.outcomes)

/-- A run of the linters of a configuration. -/
def run (setup : RunSetup σ) (options : RunOptions) (c : Config) (t : FileTree) (state : σ) :
    RunResult σ :=
  match t.prepare setup.digest setup.homes (options.jobCount c) c with
  | .error e =>
    { state := { tree := t, runner := state, store := options.store.getD (.memory []), log := [] }
      store := options.store, outcomes := .error e }
  | .ok (targets, cacheDir, skipped) =>
    let store := options.storeFor c cacheDir
    let (last, outcomes) := runTargets setup (options.jobCount c) c skipped targets
      { tree := t, runner := state, store, log := [] }
    { state := last
      store := options.store.map fun s => if s.isEmptyMemory then s else last.store
      outcomes }

end FileTree

end LinterSuite
