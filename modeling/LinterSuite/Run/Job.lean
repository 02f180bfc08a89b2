import LinterSuite.Run.Event
import LinterSuite.Run.Target

/-!
# Jobs

A job is a linter with the files it is to run on. It goes through three steps: it looks at its
files, runs its command, and settles what came of it. Between the steps of one job, others may take
theirs.

## Main definitions

* `Job`: a linter with its files
* `RunState`: what all jobs share
* `JobState`: how far a job has come
* `Job.outcome`: the outcome of a job after its command was run
* `Job.step`: the next step of a job
-/

namespace LinterSuite

/-- What all parts of a run share. -/
structure RunState (σ : Type) where
  tree : FileTree
  /-- The state of what runs commands. -/
  runner : σ
  store : CacheStore
  log : List Event

/-- The state with more events at the end of its log. -/
def RunState.say {σ : Type} (s : RunState σ) (events : List Event) : RunState σ :=
  { s with log := s.log ++ events }

/-- Times and sizes of files. -/
abbrev Observation := List (String × (Int × Nat))

/-- The times and sizes of those of some files that can be found. -/
def FileTree.observe (t : FileTree) (dir : Path) (files : List String) : Observation :=
  files.filterMap fun f => (t.times (dir.join (Path.ofString f))).toOption.map (f, ·)

/-- The files of an observation that another one has differently, or not at all. -/
def Observation.changed (before after : Observation) : List String :=
  (before.filter fun e => after.lookup e.1 != some e.2).map (·.1)

/-- A linter with the files it is to run on. -/
structure Job where
  target : Target
  /-- As they are called from the linter's directory. -/
  files : List String

/-- How far a job has come. -/
inductive JobState where
  | waiting
  /-- It has looked at its files. -/
  | observed (before : Observation)
  /-- Its command was run. -/
  | returned (before : Observation) (result : Except RunError RawOutput)
  | ended (result : Except RunFailure Outcome)

/-- The last line that says something. -/
def lastWords (output : String) : Option String :=
  ((Text.lines output).reverse.find? fun line => !Text.isBlankText line).map Text.strip

namespace Job

/-- The name of the linter. -/
def name (j : Job) : String := j.target.name

/-- The files as they are called from anywhere. -/
def paths (j : Job) : List Path := j.files.map fun f => j.target.workDir.join (Path.ofString f)

/-- What the files of a job look like. -/
def observeIn (j : Job) (t : FileTree) : Observation := t.observe j.target.workDir j.files

/-- The files that are given to the command. -/
def arguments (j : Job) : List String := if j.target.settings.passesFiles then j.files else []

/-- The command with all that it is to be run with. -/
def call (j : Job) : RunCall :=
  { command := j.target.settings.command, options := j.target.settings.options
    workDir := j.target.workDir, files := j.arguments, timeout := j.target.settings.timeout
    singleFile := j.target.settings.singleFile }

/-- The warning that the command could not be run to its end. -/
def warning (j : Job) (f : ExecutionFailure) : String :=
  let command :=
    if f.command.isEmpty then j.target.settings.command else Text.shellLine f.command
  let details := [s!"command: {command}", s!"cwd: {j.target.workDir}", s!"files: {j.files.length}"]
    ++ ((lastWords f.output).map (s!"output: {·}")).toList
  s!"{j.name} failed: {f.message}\n  " ++ "\n  ".intercalate details

/-- What is warned of when the command of a job was run. -/
def warnings (j : Job) : Except RunError RawOutput → List Event
  | .error (.failed f) => [.warned (j.warning f)]
  | _ => []

/-- The outcome of a command that ran to its end. -/
def ranOutcome (j : Job) (modified : List String) (raw : RawOutput) :
    Except Text.NumeralTooLong Outcome := do
  return {
    program := j.name, status := if raw.success then .ok else .failed
    exitStatus := some raw.exitStatus, output := raw.output
    lines := ← Grammar.parseOutput j.target.grammars j.name raw.output
    error := none, files := j.files, modified }

/-- The outcome of a command that could not be run to its end. -/
def failedOutcome (j : Job) (f : ExecutionFailure) : Except Text.NumeralTooLong Outcome := do
  return {
    program := j.name, status := .error, exitStatus := none, output := f.output
    lines := ← Grammar.parseOutput j.target.grammars j.name f.output
    error := some f.message, files := j.files, modified := [] }

/-- The outcome of a job whose files were observed before and after its command was run. -/
def outcome (j : Job) (before after : Observation) :
    Except RunError RawOutput → Except RunFailure Outcome
  | .ok raw => (j.ranOutcome (before.changed after) raw).mapError .numeral
  | .error (.failed f) => (j.failedOutcome f).mapError .numeral
  | .error (.home e) => .error (.home e)
  | .error (.path e) => .error (.path e)
  | .error .nullInArgument => .error .nullInArgument
  | .error (.unwaited e) => .error (.unwaited e)
  | .error .interrupted => .error .interrupted

variable {σ : Type}

/-- The note that the files of a run could not be recorded because of one of them. -/
def faultNote (fault : Path × FileError) : Event :=
  .noted .cache
    s!"cannot snapshot file set: {fault.2.message}: {Text.quoted fault.1.toString}"

/-- The state after the run of a job was remembered. -/
def remember (digest : Digest) (j : Job) (s : RunState σ) (o : Outcome) :
    Except FileTree.PathError (RunState σ) :=
  let checkHash := j.target.settings.checkHash
  match s.store.recordRun digest s.tree j.name j.paths o.succeeded checkHash
      j.target.fingerprint with
  | .error e => .error e
  | .ok (store, tree) =>
    let fault := if o.succeeded then s.tree.snapshotFault? j.paths checkHash else none
    .ok { s with tree, store, log := s.log ++ (fault.map faultNote).toList }

/-- The end of a job whose command was run: a warning if it could not be run to its end, the
outcome, and a record of it. -/
def settle (digest : Digest) (j : Job) (before : Observation) (result : Except RunError RawOutput)
    (s : RunState σ) : JobState × RunState σ :=
  let s := s.say (j.warnings result)
  match j.outcome before (j.observeIn s.tree) result with
  | .error e => (.ended (.error e), s)
  | .ok o =>
    match j.remember digest s o with
    | .error e => (.ended (.error (.path e)), s)
    | .ok s => (.ended (.ok o), s)

/-- The next step of a job. -/
def step (digest : Digest) (runner : Runner σ) (j : Job) :
    JobState → RunState σ → JobState × RunState σ
  | .waiting, s => (.observed (j.observeIn s.tree), s)
  | .observed before, s =>
    let (report, tree, state) := runner j.call (s.tree, s.runner)
    (.returned before report.result,
      { s with tree, runner := state }.say [.called j.call report])
  | .returned before result, s => j.settle digest before result s
  | .ended result, s => (.ended result, s)

end Job

end LinterSuite
