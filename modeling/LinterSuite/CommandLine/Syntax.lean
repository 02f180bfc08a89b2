/-!
# The words of a command line

Options have a long name and perhaps a letter. A value may be attached to its option or be the next
word, whatever that looks like. Two dashes alone end the options.

## Main definitions

* `CommandLine.Key`: the options
* `CommandLine.Word`: what a word is by itself
* `CommandLine.Parsed`, `CommandLine.parse`: the options and other words of a command line
-/

namespace LinterSuite.CommandLine

/-- The options. -/
inductive Key where
  | format | workDir | config | linter | jobs | noCache | color | noColor | debug | version | help
  deriving DecidableEq, Repr

namespace Key

/-- An option with a value. -/
def takesValue : Key → Bool
  | format | workDir | config | linter | jobs => true
  | _ => false

/-- The long name of an option. -/
def name : Key → String
  | format => "--format"
  | workDir => "--work-dir"
  | config => "--config"
  | linter => "--linter"
  | jobs => "--jobs"
  | noCache => "--no-cache"
  | color => "--color"
  | noColor => "--no-color"
  | debug => "--debug"
  | version => "--version"
  | help => "--help"

/-- The letter of an option. -/
def letter? : Key → Option Char
  | format => some 'f'
  | workDir => some 'C'
  | config => some 'c'
  | linter => some 'l'
  | jobs => some 'j'
  | _ => none

/-- All options. -/
def all : List Key :=
  [format, workDir, config, linter, jobs, noCache, color, noColor, debug, version, help]

/-- The option of a long name. -/
def ofName? (s : String) : Option Key := all.find? (·.name == s)

/-- The option of a letter. -/
def ofLetter? (c : Char) : Option Key := all.find? (·.letter? == some c)

@[simp] theorem ofName?_name (k : Key) : ofName? k.name = some k := by cases k <;> rfl

end Key

/-- What a word is by itself. -/
inductive Word where
  | operand
  | unknown
  /-- An option, under the name that was used, perhaps with a value. -/
  | option (key : Key) (name : String) (attached : Option String)
  deriving DecidableEq, Repr

/-- A word that has the name of an option in it, if there is such an option. -/
def Word.named (key : Option Key) (name : String) (attached : Option String) : Word :=
  key.elim unknown fun k => option k name attached

/-- What a word is by itself. -/
def Word.ofString (word : String) : Word :=
  match word.toList with
  | '-' :: '-' :: cs =>
    let name := "--" ++ String.ofList (cs.takeWhile (· != '='))
    let attached := match cs.dropWhile (· != '=') with
      | [] => none
      | _ :: value => some (String.ofList value)
    named (Key.ofName? name) name attached
  | '-' :: c :: cs =>
    let name := String.ofList ['-', c]
    named (Key.ofLetter? c) name (if cs.isEmpty then none else some (String.ofList cs))
  | _ => operand

/-- Why some words are no command line. -/
inductive Fault where
  | unknownOption
  /-- A value is missing at the end. -/
  | missingArgument (name : String)
  /-- A value is attached to an option that takes none. -/
  | unwantedArgument (name : String)
  deriving DecidableEq, Repr

/-- An option that was given. -/
structure Occurrence where
  key : Key
  /-- Empty if the option takes no value. -/
  value : String
  deriving DecidableEq, Repr

/-- The options and the other words of a command line. -/
structure Parsed where
  occurrences : List Occurrence
  operands : List String
  deriving DecidableEq, Repr

/-- The same with another option in front. -/
def Parsed.withOption (p : Parsed) (key : Key) (value : String) : Parsed :=
  { p with occurrences := ⟨key, value⟩ :: p.occurrences }

/-- The options and the other words among some words. -/
def parse : List String → Except Fault Parsed
  | [] => .ok ⟨[], []⟩
  | word :: rest =>
    if word = "--" then .ok ⟨[], rest⟩
    else match Word.ofString word with
      | .unknown => .error .unknownOption
      | .operand => (parse rest).map fun p => { p with operands := word :: p.operands }
      | .option key name attached =>
        if key.takesValue then
          match attached, rest with
          | some value, rest => (parse rest).map fun p => p.withOption key value
          | none, value :: rest => (parse rest).map fun p => p.withOption key value
          | none, [] => .error (.missingArgument name)
        else if attached.isSome then .error (.unwantedArgument name)
        else (parse rest).map fun p => p.withOption key ""
termination_by words => words.length

end LinterSuite.CommandLine
