import LinterSuite.CommandLine.Options
import LinterSuite.Config.Source
import LinterSuite.Report.Panel
import LinterSuite.Run

/-!
# The command line

The program reads the configuration of a directory, runs its linters and reports on them. Whatever
is wrong with the configuration is told in one line.

## Main definitions

* `CommandLine.Finish`: how the program ends, with what it wrote
* `CommandLine.lint`: reading the configuration and running it
* `CommandLine.run`: the whole program
-/

namespace LinterSuite.CommandLine

/-- The name of the program. -/
def programName : String := "multilint"

/-- The version of the program. -/
def version : String := "0.1.0"

/-- The exit status of a program that cannot do what it is asked to. -/
def fatalStatus : Nat := 2

/-- How the program ends. -/
inductive Exit where
  | status (code : Nat)
  /-- The words make no sense. -/
  | usageError
  /-- Loading the configuration came to a sudden end. -/
  | loadStopped (error : LoadError)
  /-- The run came to a sudden end. -/
  | runStopped (failure : RunFailure)
  deriving DecidableEq, Repr

/-- How the program ends, with what it wrote and left behind. -/
structure Finish where
  exit : Exit
  stdout : String
  stderr : String
  tree : FileTree

/-- What the program is made with, and where it finds itself. -/
structure Surroundings (σ : Type) where
  setup : RunSetup σ
  /-- How many jobs run at once if nobody says. -/
  usualJobs : Int
  /-- The report goes to a screen. -/
  terminal : Bool

/-- The report of words that are no command line. -/
def Fault.message : Fault → String
  | unknownOption => "No such option."
  | missingArgument name => s!"Option {Text.quoted name} requires an argument."
  | unwantedArgument name => s!"Option {Text.quoted name} does not take a value."

/-- The end after bad words: those without an option of that name are met with an explanation of the
whole program. -/
def Fault.finish (t : FileTree) (f : Fault) : Finish :=
  match f with
  | unknownOption => ⟨.usageError, "", "", t⟩
  | f => ⟨.status fatalStatus, "", panel "Error" f.message, t⟩

/-- The names of all options. -/
def usage : String :=
  s!"Usage: {programName} [OPTIONS]\n" ++ String.join (Key.all.map fun k => s!"  {k.name}\n")

/-- The answer to a question. -/
def Question.answer : Question → String
  | version => s!"{programName} {CommandLine.version}\n"
  | help => usage

/-- The notes on the loading of a configuration. -/
def loadingEvents (start : Path) (files begun : List Path) : List Event :=
  begun.map (fun p => .noted .configuration s!"loading {describeConfig p}") ++
    if files.isEmpty then
      [.noted .configuration s!"no {configFileName} found above {start}"]
    else []

/-- The configuration that is asked for, and the notes on its loading. -/
def loadConfig (t : FileTree) (start : Path) (options : Options) :
    List Event × Except LoadError Config :=
  match t.configPlaces { start, file := options.config, root := options.workDir } with
  | .error e => ([], .error (.path e))
  | .ok places =>
    match t.configSources places with
    | .error e => ([], .error e)
    | .ok files =>
      let (begun, loaded) := t.loadConfigs places.root files
      (loadingEvents places.start files begun, do
        ((← loaded).select options.linters).mapError .config)

/-- The end of a program that a bad configuration keeps from doing its work. -/
def configFinish (t : FileTree) (notices : String) (e : ConfigError) : Finish :=
  ⟨.status fatalStatus, "", notices ++ Notice.failureText false e.message, t⟩

variable {σ : Type}

/-- Runs the linters of a configuration, behind the events so far. -/
def runConfig (around : Surroundings σ) (options : Options) (events : List Event) (c : Config)
    (t : FileTree) (state : σ) : Finish :=
  let r := t.run around.setup
    { jobs := options.jobs, usualJobs := around.usualJobs
      store := if options.noCache then some (.memory []) else none } c state
  let log := events ++ r.state.log
  let color := options.color.getD around.terminal && around.terminal
  let stdout := Event.report options.format color log
  let notices := Event.notices options.debug log
  match r.exitStatus with
  | .ok status => ⟨.status status, stdout, notices, r.state.tree⟩
  | .error (.config e) => configFinish r.state.tree notices e
  | .error e => ⟨.runStopped e, stdout, notices, r.state.tree⟩

/-- Reads the configuration of a directory and runs its linters. -/
def lint (around : Surroundings σ) (options : Options) (t : FileTree) (state : σ) : Finish :=
  let start := options.workDir.getD ⟨.root, t.cwd⟩
  match t.ask FileTree.isDir start with
  | .error e => ⟨.loadStopped (.path e), "", "", t⟩
  | .ok false =>
    ⟨.status fatalStatus, "", Notice.failureText false s!"{start} is not a directory", t⟩
  | .ok true =>
    let (events, loaded) := loadConfig t start options
    match loaded with
    | .error (.config e) => configFinish t (Event.notices options.debug events) e
    | .error e => ⟨.loadStopped e, "", Event.notices options.debug events, t⟩
    | .ok c =>
      let idle := if c.linters.isEmpty then [Event.warned "No linters configured"] else []
      runConfig around options (events ++ idle) c t state

/-- The whole program. -/
def run (around : Surroundings σ) (words : List String) (t : FileTree) (state : σ) : Finish :=
  match parse words with
  | .error f => f.finish t
  | .ok p =>
    match p.question? with
    | some q => ⟨.status 0, q.answer, "", t⟩
    | none =>
      match Options.ofParsed? p with
      | none => ⟨.usageError, "", "", t⟩
      | some options => lint around options t state

end LinterSuite.CommandLine
