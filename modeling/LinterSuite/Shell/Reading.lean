import LinterSuite.Shell.Token

/-!
# Reading shell scripts

The tokens of a script are read as a command. Lists bind loosest, then the connectives, then pipes;
compound commands stand between reserved words, which are reserved only where a command begins.

## Main definitions

* `Shell.Tokens`: tokens with their lines
* `Shell.list?`: a list of commands
* `Shell.read?`: the command of a script
-/

namespace LinterSuite.Shell

/-- Tokens with their lines. -/
abbrev Tokens := List (Token × Nat)

/-- The tokens behind line breaks. -/
def skipBreaks (ts : Tokens) : Tokens := ts.dropWhile fun t => t.1 = .control "\n"

/-- The plain text of a word token. -/
def plain? : Token → Option String
  | .word w => w.bare?
  | _ => none

/-- The tokens behind a reserved word. -/
def expectWord? (word : String) : Tokens → Option Tokens
  | (t, _) :: rest => if plain? t = some word then some rest else none
  | [] => none

/-- The words at the front of some tokens. -/
def wordsOf : Tokens → List Word × Tokens
  | (.word w, _) :: rest =>
    let r := wordsOf rest
    (w :: r.1, r.2)
  | ts => ([], ts)

/-- The redirections at the front of some tokens. -/
def redirections : Tokens → List Redirection × Tokens
  | (.redirect number access, _) :: (.word target, _) :: rest =>
    let r := redirections rest
    (⟨number, access, target⟩ :: r.1, r.2)
  | ts => ([], ts)

/-- The words and redirections of a simple command, in any order. -/
def simpleParts : Tokens → (List Word × List Redirection) × Tokens
  | (.redirect number access, _) :: (.word target, _) :: rest =>
    let r := simpleParts rest
    ((r.1.1, ⟨number, access, target⟩ :: r.1.2), r.2)
  | (.word w, _) :: rest =>
    let r := simpleParts rest
    ((w :: r.1.1, r.1.2), r.2)
  | ts => (([], []), ts)

/-- The variable that a word sets and the word it is set to. -/
def assignment? : Word → Option (String × Word)
  | w =>
    let isPlain (p : Piece) : Bool := match p with
      | .text [c] false => isNameChar c
      | _ => false
    let name := w.takeWhile isPlain
    match Word.bare? name, w.drop name.length with
    | some text, .text ['='] false :: value =>
      match text.toList with
      | c :: _ => if c.isDigit then none else some (text, value)
      | [] => none
    | _, _ => none

/-- The assignments in front of some words, and the words behind them. -/
def splitAssignments : List Word → List (String × Word) × List Word
  | [] => ([], [])
  | w :: ws =>
    match assignment? w with
    | some a =>
      let r := splitAssignments ws
      (a :: r.1, r.2)
    | none => ([], w :: ws)

/-- A simple command. -/
def simple? (ts : Tokens) : Option (Script × Tokens) :=
  let ((words, redirs), rest) := simpleParts ts
  if words.isEmpty && redirs.isEmpty then none
  else
    let (assignments, words) := splitAssignments words
    some (.simple ((ts.head?.map (·.2)).getD 1) assignments words redirs, rest)

/-- The patterns of a branch up to the closing parenthesis. -/
def patterns? : Tokens → Option (List Word × Tokens)
  | (.word w, _) :: (.control ")", _) :: rest => some ([w], rest)
  | (.word w, _) :: (.control "|", _) :: rest => (patterns? rest).map fun r => (w :: r.1, r.2)
  | _ => none

/-- A command with redirections behind it. -/
def grouped (apart : Bool) (r : Script × Tokens) : Script × Tokens :=
  let (redirs, rest) := redirections r.2
  if redirs.isEmpty && !apart then (r.1, rest) else (.group apart r.1 redirs, rest)

mutual

/-- A list of commands. The fuel bounds the depth and the length. -/
def list? : (fuel : Nat) → Tokens → Option (Script × Tokens)
  | 0, _ => none
  | fuel + 1, ts =>
    match skipBreaks ts with
    | [] => some (.nothing, [])
    | (t, line) :: rest =>
      let ts := (t, line) :: rest
      if endsList t then some (.nothing, ts)
      else do
        let (first, rest) ← connected? fuel ts
        match rest with
        | (.control "&", _) :: rest => then? fuel (.background first) rest
        | (.control ";", _) :: rest => then? fuel first rest
        | (.control "\n", _) :: rest => then? fuel first rest
        | rest => some (first, rest)

/-- A command followed by the rest of a list. -/
def then? : (fuel : Nat) → Script → Tokens → Option (Script × Tokens)
  | 0, _, _ => none
  | fuel + 1, first, ts =>
    (list? fuel ts).map fun r => match r.1 with
      | .nothing => (first, r.2)
      | more => (.sequence first more, r.2)

/-- The tokens that end a list. -/
def endsList (t : Token) : Bool :=
  t = .control ")" || t = .control ";;" ||
    ["then", "elif", "else", "fi", "do", "done", "esac", "\x7d"].any fun w => plain? t = some w

/-- Commands with connectives between them. -/
def connected? : (fuel : Nat) → Tokens → Option (Script × Tokens)
  | 0, _ => none
  | fuel + 1, ts => do
    let (first, rest) ← piped? fuel ts
    connectedFrom? fuel first rest

/-- Commands with connectives between them, behind the first. -/
def connectedFrom? : (fuel : Nat) → Script → Tokens → Option (Script × Tokens)
  | 0, _, _ => none
  | fuel + 1, first, ts =>
    match ts with
    | (.control "&&", _) :: rest => do
      let (next, rest) ← piped? fuel (skipBreaks rest)
      connectedFrom? fuel (.both first next) rest
    | (.control "||", _) :: rest => do
      let (next, rest) ← piped? fuel (skipBreaks rest)
      connectedFrom? fuel (.either first next) rest
    | ts => some (first, ts)

/-- Commands with pipes between them, perhaps behind a sign of negation. -/
def piped? : (fuel : Nat) → Tokens → Option (Script × Tokens)
  | 0, _ => none
  | fuel + 1, ts =>
    match expectWord? "!" ts with
    | some rest => (piped? fuel rest).map fun r => (.invert r.1, r.2)
    | none => do
      let (first, rest) ← command? fuel ts
      match rest with
      | (.control "|", _) :: rest =>
        (piped? fuel (skipBreaks rest)).map fun r => (.pipe first r.1, r.2)
      | rest => some (first, rest)

/-- A list up to a reserved word. -/
def listTo? : (fuel : Nat) → String → Tokens → Option (Script × Tokens)
  | 0, _, _ => none
  | fuel + 1, word, ts => do
    let (body, rest) ← list? fuel ts
    return (body, ← expectWord? word rest)

/-- What is behind the condition of a branch. -/
def otherwise? : (fuel : Nat) → Tokens → Option (Script × Tokens)
  | 0, _ => none
  | fuel + 1, ts =>
    match expectWord? "fi" ts, expectWord? "else" ts, expectWord? "elif" ts with
    | some rest, _, _ => some (.nothing, rest)
    | _, some rest, _ => listTo? fuel "fi" rest
    | _, _, some rest => branch? fuel rest
    | _, _, _ => none

/-- A branch behind its first word. -/
def branch? : (fuel : Nat) → Tokens → Option (Script × Tokens)
  | 0, _ => none
  | fuel + 1, ts => do
    let (condition, rest) ← listTo? fuel "then" ts
    let (yes, rest) ← list? fuel rest
    let (no, rest) ← otherwise? fuel rest
    return (.branch condition yes no, rest)

/-- The cases of a selection up to its last word. -/
def cases? : (fuel : Nat) → Tokens → Option (List (List Word × Script) × Tokens)
  | 0, _ => none
  | fuel + 1, ts =>
    let ts := skipBreaks ts
    match expectWord? "esac" ts with
    | some rest => some ([], rest)
    | none => do
      let ts := match ts with
        | (.control "(", _) :: rest => rest
        | ts => ts
      let (patterns, rest) ← patterns? ts
      let (body, rest) ← list? fuel rest
      let rest := match rest with
        | (.control ";;", _) :: rest => rest
        | rest => rest
      let (more, rest) ← cases? fuel rest
      return ((patterns, body) :: more, rest)

/-- A loop over words behind its first word. -/
def forEach? : (fuel : Nat) → Tokens → Option (Script × Tokens)
  | 0, _ => none
  | fuel + 1, ts =>
    match ts with
    | (t, _) :: rest => do
      let name ← plain? t
      let rest := skipBreaks rest
      let (words, rest) := match expectWord? "in" rest with
        | some rest =>
          let r := wordsOf rest
          (some r.1, r.2)
        | none => (none, rest)
      let rest := rest.dropWhile fun t => t.1 = .control ";" || t.1 = .control "\n"
      let (body, rest) ← listTo? fuel "done" (← expectWord? "do" rest)
      return (.forEach name words body, rest)
    | [] => none

/-- A command. -/
def command? : (fuel : Nat) → Tokens → Option (Script × Tokens)
  | 0, _ => none
  | fuel + 1, ts =>
    match ts with
    | (.control "(", _) :: rest => do
      let (body, rest) ← list? fuel rest
      match rest with
      | (.control ")", _) :: rest => some (grouped true (body, rest))
      | _ => none
    | (t, _) :: rest =>
      match plain? t with
      | some "if" => (branch? fuel rest).map (grouped false)
      | some "for" => (forEach? fuel rest).map (grouped false)
      | some "while" => (loop? fuel true rest).map (grouped false)
      | some "until" => (loop? fuel false rest).map (grouped false)
      | some "\x7b" => (listTo? fuel "\x7d" rest).map (grouped false)
      | some "case" =>
        match rest with
        | (.word subject, _) :: rest => do
          let (branches, rest) ← cases? fuel (← expectWord? "in" (skipBreaks rest))
          return grouped false (.select subject branches, rest)
        | _ => none
      | _ => simple? ts
    | [] => none

/-- A loop with a condition behind its first word. -/
def loop? : (fuel : Nat) → Bool → Tokens → Option (Script × Tokens)
  | 0, _, _ => none
  | fuel + 1, goal, ts => do
    let (condition, rest) ← listTo? fuel "do" ts
    let (body, rest) ← listTo? fuel "done" rest
    return (.loop goal condition body, rest)

end

/-- The command of a script; each token takes only so many steps. -/
def read? (cs : List Char) : Option Script := do
  let ts ← tokens? cs
  match list? (8 * ts.length + 8) ts with
  | some (s, []) => some s
  | _ => none

end LinterSuite.Shell
