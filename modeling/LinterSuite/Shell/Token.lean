import LinterSuite.Shell.Syntax

/-!
# Tokens of shell scripts

A script is a sequence of words, operators and redirections. Quotes and expansions are read as far
as needed to see where a word ends; the text inside an expansion is left as it is.

## Main definitions

* `Shell.Token`: a token
* `Shell.tokens?`: the tokens of a script with their lines
-/

namespace LinterSuite.Shell

/-- A token. -/
inductive Token where
  | word (w : Word)
  /-- A separator or an operator of control. -/
  | control (operator : String)
  /-- The operator of a redirection with the number of the open file. -/
  | redirect (number : Nat) (access : Access)
  deriving DecidableEq, Repr

/-- The characters that end a word. -/
def isDelimiter (c : Char) : Bool := " \t\n;&|()<>".toList.contains c

/-- The characters of names. -/
def isNameChar (c : Char) : Bool := c.isAlphanum || c == '_'

/-- The parameters that are named by one sign. -/
def isSpecial (c : Char) : Bool := "#*@?$!-".toList.contains c

/-- The text up to the delimiter that closes a nesting, and the text behind it. Quoted text is
passed over. -/
def nested? (opening closing : Char) : (depth : Nat) → List Char → Option (List Char × List Char)
  | _, [] => none
  | depth, '\\' :: c :: cs =>
    (nested? opening closing depth cs).map fun r => ('\\' :: c :: r.1, r.2)
  | depth, c :: cs =>
    if c = closing then
      match depth with
      | 0 => some ([], cs)
      | depth + 1 => (nested? opening closing depth cs).map fun r => (c :: r.1, r.2)
    else
      let depth := if c = opening then depth + 1 else depth
      (nested? opening closing depth cs).map fun r => (c :: r.1, r.2)

/-- The expansion of a parameter in braces. -/
def braced (cs : List Char) (quoted : Bool) : Piece :=
  match cs with
  | '#' :: c :: rest => .length (String.ofList (c :: rest)) quoted
  | _ =>
    let special := match cs with
      | c :: _ => isSpecial c
      | [] => false
    let name := if special then cs.take 1 else cs.takeWhile isNameChar
    let rest := cs.drop name.length
    let rest := match rest with
      | ':' :: rest => rest
      | rest => rest
    .parameter (String.ofList name) (rest.drop 1) quoted

/-- The expansion behind a dollar sign, and the text behind it; a dollar sign that begins none
stands for itself. -/
def expansion? (quoted : Bool) : List Char → Option (Piece × List Char)
  | '(' :: '(' :: cs => do
    let (e, rest) ← nested? '(' ')' 0 cs
    match rest with
    | ')' :: rest => some (.arithmetic e quoted, rest)
    | _ => none
  | '(' :: cs => (nested? '(' ')' 0 cs).map fun r => (.output r.1 quoted, r.2)
  | '\x7b' :: cs => (nested? '\x7b' '\x7d' 0 cs).map fun r => (braced r.1 quoted, r.2)
  | c :: cs =>
    if isSpecial c || c.isDigit then some (.parameter (String.singleton c) [] quoted, cs)
    else
      let name := (c :: cs).takeWhile isNameChar
      if name.isEmpty then some (.text ['$'] quoted, c :: cs)
      else some (.parameter (String.ofList name) [] quoted, (c :: cs).drop name.length)
  | [] => some (.text ['$'] quoted, [])

/-- The script between backquotes, and the text behind them. -/
def backquoted? : List Char → Option (List Char × List Char)
  | [] => none
  | '`' :: rest => some ([], rest)
  | '\\' :: c :: rest =>
    let kept := if c = '`' ∨ c = '\\' ∨ c = '$' then [c] else ['\\', c]
    (backquoted? rest).map fun r => (kept ++ r.1, r.2)
  | c :: rest => (backquoted? rest).map fun r => (c :: r.1, r.2)

/-- The pieces in double quotes, and the text behind the closing one. The fuel bounds their
number. -/
def quotedPieces? : (fuel : Nat) → List Char → Option (Word × List Char)
  | 0, _ => none
  | fuel + 1, cs =>
    let add (p : Piece) (rest : List Char) : Option (Word × List Char) :=
      (quotedPieces? fuel rest).map fun r => (p :: r.1, r.2)
    match cs with
    | [] => none
    | '"' :: rest => some ([], rest)
    | '\\' :: '\n' :: rest => quotedPieces? fuel rest
    | '\\' :: c :: rest =>
      add (.text (if "$`\"\\".toList.contains c then [c] else ['\\', c]) true) rest
    | '$' :: rest => (expansion? true rest).bind fun r => add r.1 r.2
    | '`' :: rest => (backquoted? rest).bind fun r => add (.output r.1 true) r.2
    | c :: rest => add (.text [c] true) rest

/-- The pieces of a word, and the text behind it. The fuel bounds their number. -/
def pieces? : (fuel : Nat) → List Char → Option (Word × List Char)
  | 0, _ => none
  | fuel + 1, cs =>
    let add (p : Piece) (rest : List Char) : Option (Word × List Char) :=
      (pieces? fuel rest).map fun r => (p :: r.1, r.2)
    match cs with
    | [] => some ([], [])
    | '\\' :: '\n' :: rest => pieces? fuel rest
    | '\\' :: c :: rest => add (.text [c] true) rest
    | '\'' :: rest =>
      match rest.dropWhile (· != '\'') with
      | _ :: behind => add (.text (rest.takeWhile (· != '\'')) true) behind
      | [] => none
    | '"' :: '"' :: rest => add (.text [] true) rest
    | '"' :: rest => do
      let (quoted, rest) ← quotedPieces? (rest.length + 1) rest
      let (more, rest) ← pieces? fuel rest
      return (quoted ++ more, rest)
    | '$' :: rest => (expansion? false rest).bind fun r => add r.1 r.2
    | '`' :: rest => (backquoted? rest).bind fun r => add (.output r.1 false) r.2
    | c :: rest => if isDelimiter c then some ([], c :: rest) else add (.text [c] false) rest

/-- The operators of control, longer ones first. -/
def controls : List String := [";;", "&&", "||", ";", "&", "|", "(", ")", "\n"]

/-- The operators of redirections, longer ones first. -/
def redirects : List (String × Access) :=
  [(">>", .append), (">&", .duplicate), ("<&", .duplicate), (">|", .write), (">", .write),
    ("<", .read)]

/-- A redirection operator at the front of a text, perhaps with a number before it. -/
def redirect? (cs : List Char) : Option (Token × List Char) :=
  let digits := cs.takeWhile Char.isDigit
  let rest := cs.drop digits.length
  (redirects.find? fun r => r.1.toList.isPrefixOf rest).map fun r =>
    let usual := if r.1.startsWith "<" then 0 else 1
    let number := digits.foldl (fun n d => 10 * n + (d.toNat - '0'.toNat)) 0
    (.redirect (if digits.isEmpty then usual else number) r.2, rest.drop r.1.length)

/-- The tokens of the rest of a script, with their lines. The fuel bounds their number. -/
def tokensFrom? : (fuel line : Nat) → List Char → Option (List (Token × Nat))
  | 0, _, _ => none
  | fuel + 1, line, cs =>
    match cs with
    | [] => some []
    | '\\' :: '\n' :: rest => tokensFrom? fuel (line + 1) rest
    | c :: rest =>
      if c = ' ' ∨ c = '\t' then tokensFrom? fuel line rest
      else if c = '#' then tokensFrom? fuel line (rest.dropWhile (· != '\n'))
      else match redirect? cs with
        | some (t, rest) => (tokensFrom? fuel line rest).map ((t, line) :: ·)
        | none =>
          match controls.find? fun o => o.toList.isPrefixOf cs with
          | some o =>
            let next := if o = "\n" then line + 1 else line
            (tokensFrom? fuel next (cs.drop o.length)).map ((.control o, line) :: ·)
          | none => do
            let (w, rest) ← pieces? (cs.length + 1) cs
            let breaks := (cs.take (cs.length - rest.length)).count '\n'
            return (.word w, line) :: (← tokensFrom? fuel (line + breaks) rest)

/-- The tokens of a script with their lines, the first line being one. -/
def tokens? (cs : List Char) : Option (List (Token × Nat)) := tokensFrom? (cs.length + 1) 1 cs

end LinterSuite.Shell
