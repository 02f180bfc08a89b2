import LinterSuite.Text.Blank

/-!
# Shell scripts

Linters may be scripts for the POSIX shell. A script is a command; a command is built from simple
commands, whose words are pieces of text and expansions.

## Main definitions

* `Shell.Piece`, `Shell.Word`: the words of a command
* `Shell.Redirection`: where a command reads and writes
* `Shell.Script`: a command

## Main results

* `Shell.Word.bare?_singleton`: a word of one plain piece has its text
-/

namespace LinterSuite.Shell

/-- A piece of a word. A piece in double quotes is neither split into fields nor a pattern. -/
inductive Piece where
  | text (cs : List Char) (quoted : Bool)
  /-- The value of a parameter, or some text if it is empty or unset. -/
  | parameter (name : String) (otherwise : List Char) (quoted : Bool)
  /-- How long the value of a parameter is. -/
  | length (name : String) (quoted : Bool)
  /-- What a script writes. -/
  | output (script : List Char) (quoted : Bool)
  /-- The value of an arithmetic expression. -/
  | arithmetic (expression : List Char) (quoted : Bool)
  deriving DecidableEq, Repr

/-- A word of a command. -/
abbrev Word := List Piece

/-- The text of a word without quotes and expansions. -/
def Word.bare? : Word → Option String
  | [] => some ""
  | .text cs false :: rest => (Word.bare? rest).map (String.ofList cs ++ ·)
  | _ => none

@[simp] theorem Word.bare?_singleton (cs : List Char) :
    Word.bare? [.text cs false] = some (String.ofList cs) := by
  simp [Word.bare?]

/-- What is done with a file that a redirection names. -/
inductive Access where
  | read | write | append
  /-- The word is the number of an open file. -/
  | duplicate
  deriving DecidableEq, Repr

/-- A redirection of an open file of a command. -/
structure Redirection where
  /-- The number of the open file. -/
  number : Nat
  access : Access
  target : Word
  deriving DecidableEq, Repr

/-- A command. -/
inductive Script where
  /-- A command of words, on a line. -/
  | simple (line : Nat) (assignments : List (String × Word)) (words : List Word)
      (redirections : List Redirection)
  | pipe (left right : Script)
  /-- The second command if the first succeeds. -/
  | both (left right : Script)
  /-- The second command if the first fails. -/
  | either (left right : Script)
  | invert (body : Script)
  /-- One command after the other. -/
  | sequence (left right : Script)
  | background (body : Script)
  /-- The body for each word, or for each argument. -/
  | forEach (variable_ : String) (words : Option (List Word)) (body : Script)
  /-- The body as long as the condition succeeds, or as long as it fails. -/
  | loop (goal : Bool) (condition body : Script)
  | branch (condition yes no : Script)
  | select (subject : Word) (cases_ : List (List Word × Script))
  /-- A command with redirections, in a shell of its own on request. -/
  | group (apart : Bool) (body : Script) (redirections : List Redirection)
  | nothing

end LinterSuite.Shell
