import LinterSuite.Text.Quoted

/-!
# Output grammars

A grammar describes one output line: literal text with a placeholder for each field of a
diagnostic, such as `%f:%l:%c: %m`. A percent sign of the text is written twice. A caret in front
and a dollar sign behind mark the ends of the line and mean nothing more.

## Main definitions

* `Placeholder`: the fields that a grammar can name
* `Token`: a piece of a grammar
* `Grammar`: a grammar with its pieces
* `Grammar.tokenize`: the pieces of a text, or what is wrong with it
* `Grammar.unparse`: the text of some pieces

## Main results

* `Placeholder.ofLetter?_eq_some_iff`: a letter names at most one placeholder
-/

namespace LinterSuite

/-- The fields of a diagnostic that a grammar can name. -/
inductive Placeholder where
  | file | line | column | message | program
  deriving DecidableEq, Repr

namespace Placeholder

/-- The letter behind the percent sign. -/
def letter : Placeholder → Char
  | file => 'f'
  | line => 'l'
  | column => 'c'
  | message => 'm'
  | program => 'p'

/-- The placeholder of a letter. -/
def ofLetter? : Char → Option Placeholder
  | 'f' => some file
  | 'l' => some line
  | 'c' => some column
  | 'm' => some message
  | 'p' => some program
  | _ => none

/-- The name of the field. -/
def name : Placeholder → String
  | file => "file"
  | line => "line"
  | column => "column"
  | message => "message"
  | program => "program"

theorem ofLetter?_eq_some_iff {c : Char} {p : Placeholder} :
    ofLetter? c = some p ↔ c = p.letter := by
  constructor
  · intro h
    unfold ofLetter? at h
    split at h <;> simp_all <;> subst h <;> rfl
  · rintro rfl
    cases p <;> rfl

end Placeholder

/-- A piece of a grammar: text that stands for itself, or a field. -/
inductive Token where
  | literal (text : List Char)
  | placeholder (field : Placeholder)
  deriving DecidableEq, Repr

/-- What is wrong with a grammar. -/
inductive GrammarFault where
  /-- Nothing is left between the end marks. -/
  | empty
  /-- The text ends in a lone percent sign. -/
  | dangling
  /-- No placeholder has this letter; the offset counts from the start mark. -/
  | invalid (letter : Char) (offset : Nat)
  /-- A field is named twice. -/
  | repeated (field : Placeholder)
  deriving DecidableEq, Repr

/-- A text that is no grammar. -/
structure GrammarError where
  source : String
  fault : GrammarFault
  deriving DecidableEq, Repr

/-- The report of a malformed grammar. -/
def GrammarError.message (e : GrammarError) : String :=
  let shown := Text.quoted e.source
  match e.fault with
  | .empty => s!"Empty grammar {shown}"
  | .dangling => s!"Dangling '%' at the end of grammar {shown}"
  | .invalid c offset =>
    "Invalid placeholder '%" ++ c.toString ++ s!"' at offset {offset} in grammar {shown}"
  | .repeated p => "Placeholder '%" ++ p.letter.toString ++ s!"' repeated in grammar {shown}"

/-- A grammar: its text and the pieces that the text stands for. -/
structure Grammar where
  source : String
  tokens : List Token
  deriving DecidableEq, Repr

namespace Grammar

/-- The text without a caret in front and then without a dollar sign behind. -/
def stripAnchors (cs : List Char) : List Char :=
  let cs := match cs with
    | '^' :: rest => rest
    | _ => cs
  match cs.getLast? with
  | some '$' => cs.dropLast
  | _ => cs

/-- Puts the literal text read so far (reversed) in front of some tokens. -/
def withLiteral (held : List Char) (tokens : List Token) : List Token :=
  if held.isEmpty then tokens else .literal held.reverse :: tokens

/-- The pieces of the rest of a grammar, at an offset, behind literal text `held` (reversed) and
after the fields `seen`. -/
def tokensFrom (offset : Nat) (held : List Char) (seen : List Placeholder) :
    List Char → Except GrammarFault (List Token)
  | [] => .ok (withLiteral held [])
  | ['%'] => .error .dangling
  | '%' :: '%' :: rest => tokensFrom (offset + 2) ('%' :: held) seen rest
  | '%' :: c :: rest =>
    match Placeholder.ofLetter? c with
    | none => .error (.invalid c offset)
    | some p =>
      if p ∈ seen then .error (.repeated p)
      else (tokensFrom (offset + 2) [] (p :: seen) rest).map
        fun tokens => withLiteral held (.placeholder p :: tokens)
  | c :: rest => tokensFrom (offset + 1) (c :: held) seen rest

/-- The pieces of a grammar between its end marks. -/
def tokenizeChars (cs : List Char) : Except GrammarFault (List Token) :=
  let body := stripAnchors cs
  if body.isEmpty then .error .empty else tokensFrom 0 [] [] body

/-- The pieces of a grammar. -/
def tokenize (source : String) : Except GrammarError (List Token) :=
  (tokenizeChars source.toList).mapError fun fault => ⟨source, fault⟩

/-- The grammar that a text writes. -/
def compile (source : String) : Except GrammarError Grammar :=
  (tokenize source).map fun tokens => ⟨source, tokens⟩

/-- The fields of a grammar in order. -/
def placeholders (g : Grammar) : List Placeholder :=
  g.tokens.filterMap fun
    | .literal _ => none
    | .placeholder p => some p

/-- The text of one piece, with percent signs doubled. -/
def unparseToken : Token → List Char
  | .literal text => text.flatMap fun c => if c = '%' then ['%', '%'] else [c]
  | .placeholder p => ['%', p.letter]

/-- The text of some pieces, without end marks. -/
def unparse (tokens : List Token) : List Char := tokens.flatMap unparseToken

end Grammar

end LinterSuite
