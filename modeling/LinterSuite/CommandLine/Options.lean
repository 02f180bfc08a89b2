import LinterSuite.CommandLine.Syntax
import LinterSuite.Number.IntegerText
import LinterSuite.Path
import LinterSuite.Report.Format

/-!
# The options of a command line

The last of several values of an option counts, except that linters are collected.

## Main definitions

* `CommandLine.jobs?`: the number of jobs that a word writes
* `CommandLine.formatOf?`: the format that a word names in any case
* `CommandLine.Options`: what is asked for
* `CommandLine.Options.ofParsed?`: the options of a command line, if their values are good

## Main results

* `CommandLine.formatOf?_name`: every format is known by its name
-/

namespace LinterSuite.CommandLine

/-- A letter without its case. The long s and the sign for kelvins are letters of no case of their
own. -/
def foldCase (c : Char) : Char :=
  if c.toNat = 0x17F then 's' else if c.toNat = 0x212A then 'k' else c.toLower

/-- The format that a word names in any case. -/
def formatOf? (word : String) : Option Format :=
  Format.ofName? (String.ofList (word.toList.map foldCase))

@[simp] theorem formatOf?_name (f : Format) : formatOf? f.name = some f := by
  cases f <;> decide

/-- The number of jobs that a word writes, at least one. -/
def jobs? (word : String) : Option Int :=
  (IntegerText.read word).toOption.filter fun n => decide (1 ≤ n)

/-- What is asked for. -/
structure Options where
  format : Format
  workDir : Option Path
  config : Option Path
  linters : List String
  jobs : Option Int
  noCache : Bool
  /-- Whether to colour the report, if it is said. -/
  color : Option Bool
  debug : Bool
  deriving Repr

/-- The last value that was given for an option. -/
def Parsed.last? (p : Parsed) (key : Key) : Option String :=
  (p.occurrences.reverse.find? (·.key = key)).map (·.value)

/-- All values that were given for an option. -/
def Parsed.values (p : Parsed) (key : Key) : List String :=
  (p.occurrences.filter (·.key = key)).map (·.value)

/-- What was said last about colours. -/
def Parsed.color? (p : Parsed) : Option Bool :=
  (p.occurrences.reverse.find? fun o => o.key = .color || o.key = .noColor).map (·.key = .color)

/-- An optional value read by a reader that may refuse it. -/
def readOptional {α : Type} (read : String → Option α) : Option String → Option (Option α)
  | none => some none
  | some word => (read word).map some

/-- The options of a command line, if their values are good and there are no other words. -/
def Options.ofParsed? (p : Parsed) : Option Options := do
  let format ← readOptional formatOf? (p.last? .format)
  let jobs ← readOptional jobs? (p.last? .jobs)
  if p.operands.isEmpty then
    return {
      format := format.getD .text
      workDir := (p.last? .workDir).map Path.ofString
      config := (p.last? .config).map Path.ofString
      linters := p.values .linter
      jobs
      noCache := (p.last? .noCache).isSome
      color := p.color?
      debug := (p.last? .debug).isSome }
  else none

/-- Questions that are answered before anything else. -/
inductive Question where
  | version | help
  deriving DecidableEq, Repr

/-- The first question of a command line. -/
def Parsed.question? (p : Parsed) : Option Question :=
  p.occurrences.findSome? fun o =>
    match o.key with
    | .version => some .version
    | .help => some .help
    | _ => none

end LinterSuite.CommandLine
