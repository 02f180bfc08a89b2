import LinterSuite.Text.Hex
import LinterSuite.Text.Reading

/-!
# Strings, keys and comments of TOML

A string is basic, with escapes, or literal, without; three quotes open a string that may hold line
breaks. A key is a sequence of names with points between them, each bare or a string.

## Main definitions

* `Toml.isIllegal`: the control characters that no document may hold
* `Toml.basic?`, `Toml.literal?`: strings of one line behind their opening quote
* `Toml.longBasic?`, `Toml.longLiteral?`: strings of several lines behind their opening quotes
* `Toml.key?`: a key with points
* `Toml.skipComment?`: what is behind a comment

## Main results

* `Toml.length_escape?_lt`: an escape takes at least one character
-/

namespace LinterSuite.Toml

/-- The control characters but the tab. -/
def isIllegal (c : Char) : Bool := (c.toNat < 0x20 && c != '\t') || c.toNat == 0x7F

/-- Spaces and tabs. -/
def isSpace (c : Char) : Bool := c == ' ' || c == '\t'

/-- Spaces, tabs and line breaks. -/
def isGap (c : Char) : Bool := isSpace c || c == '\n'

/-- The text without spaces in front. -/
def skipSpaces (cs : List Char) : List Char := cs.dropWhile isSpace

/-- The text behind a comment, if there is one in front; it ends with its line. -/
def skipComment? : List Char → Option (List Char)
  | '#' :: cs =>
    if (cs.takeWhile (· != '\n')).any isIllegal then none else some (cs.dropWhile (· != '\n'))
  | cs => some cs

/-- The text behind spaces, line breaks and comments. The fuel bounds the number of comments. -/
def skipGaps? : (fuel : Nat) → List Char → Option (List Char)
  | 0, _ => none
  | fuel + 1, cs =>
    match cs.dropWhile isGap with
    | '#' :: rest => (skipComment? ('#' :: rest)).bind (skipGaps? fuel)
    | rest => some rest

/-! ### Strings -/

/-- The character of a letter behind a backslash. -/
def escapeLetter? : Char → Option Char
  | 'b' => some '\x08'
  | 't' => some '\t'
  | 'n' => some '\n'
  | 'f' => some '\x0c'
  | 'r' => some '\r'
  | '"' => some '"'
  | '\\' => some '\\'
  | _ => none

/-- The character whose code point the first `width` digits write. -/
def codePoint? (width : Nat) (cs : List Char) : Option (List Char × List Char) := do
  let digits ← (cs.take width).mapM Text.hexValue?
  let n := digits.foldl (fun acc d => 16 * acc + d) 0
  if digits.length = width ∧ n.isValidChar then some ([Char.ofNat n], cs.drop width) else none

/-- The text behind a break of a line that a backslash hides, and behind all gaps that follow. -/
def hiddenBreak? (cs : List Char) : Option (List Char × List Char) :=
  match skipSpaces cs with
  | '\n' :: rest => some ([], rest.dropWhile isGap)
  | _ => none

/-- What stands for the characters behind a backslash, and the text behind them. -/
def escape? (long : Bool) : List Char → Option (List Char × List Char)
  | [] => none
  | 'u' :: cs => codePoint? 4 cs
  | 'U' :: cs => codePoint? 8 cs
  | c :: cs =>
    match escapeLetter? c with
    | some e => some ([e], cs)
    | none => if long && isGap c then hiddenBreak? (c :: cs) else none

theorem length_dropWhile_le {α : Type} (p : α → Bool) (l : List α) :
    (l.dropWhile p).length ≤ l.length :=
  (List.dropWhile_sublist p).length_le

theorem length_codePoint?_le {width : Nat} {cs text rest : List Char}
    (h : codePoint? width cs = some (text, rest)) : rest.length ≤ cs.length := by
  simp only [codePoint?, Option.bind_eq_bind, Option.bind_eq_some_iff] at h
  obtain ⟨digits, -, h⟩ := h
  split at h
  · obtain ⟨-, rfl⟩ := Prod.mk.inj (Option.some.inj h)
    simp
  · simp at h

theorem length_hiddenBreak?_lt {cs text rest : List Char}
    (h : hiddenBreak? cs = some (text, rest)) : rest.length < cs.length := by
  have hle := length_dropWhile_le isSpace cs
  unfold hiddenBreak? skipSpaces at h
  split at h
  · next tail heq =>
    obtain ⟨-, rfl⟩ := Prod.mk.inj (Option.some.inj h)
    have := length_dropWhile_le isGap tail
    rw [heq, List.length_cons] at hle
    omega
  · simp at h

theorem length_escape?_lt {long : Bool} {cs text rest : List Char}
    (h : escape? long cs = some (text, rest)) : rest.length < cs.length := by
  unfold escape? at h
  split at h
  · simp at h
  · have := length_codePoint?_le h
    simp only [List.length_cons]; omega
  · have := length_codePoint?_le h
    simp only [List.length_cons]; omega
  · split at h
    · obtain ⟨-, rfl⟩ := Prod.mk.inj (Option.some.inj h)
      simp
    · split at h
      · exact length_hiddenBreak?_lt h
      · simp at h

/-- A basic string behind its opening quote, or a long one behind its opening quotes, up to the
first closing quotes. -/
def basicBody? (long : Bool) : List Char → Option (List Char × List Char)
  | [] => none
  | '\\' :: rest =>
    match h : escape? long rest with
    | none => none
    | some (text, rest') =>
      have := length_escape?_lt h
      (basicBody? long rest').map fun r => (text ++ r.1, r.2)
  | '"' :: rest =>
    if !long then some ([], rest)
    else if ['"', '"'].isPrefixOf rest then some ([], rest.drop 2)
    else (basicBody? long rest).map fun r => ('"' :: r.1, r.2)
  | c :: rest =>
    if isIllegal c && !(long && c == '\n') then none
    else (basicBody? long rest).map fun r => (c :: r.1, r.2)
termination_by cs => cs.length
decreasing_by all_goals (simp only [List.length_cons]; omega)

/-- A basic string of one line behind its opening quote. -/
def basic? (cs : List Char) : Option (List Char × List Char) := basicBody? false cs

/-- A literal string behind its opening quote. -/
def literal? (cs : List Char) : Option (List Char × List Char) :=
  match cs.dropWhile (· != '\'') with
  | _ :: rest =>
    let text := cs.takeWhile (· != '\'')
    if text.any isIllegal then none else some (text, rest)
  | [] => none

/-- A long literal string up to the first closing quotes. -/
def longLiteralBody? : List Char → Option (List Char × List Char)
  | [] => none
  | '\'' :: '\'' :: '\'' :: rest => some ([], rest)
  | c :: rest =>
    if isIllegal c && c != '\n' then none
    else (longLiteralBody? rest).map fun r => (c :: r.1, r.2)

/-- Up to two more quotes behind the closing ones belong to a long string. -/
def moreQuotes (quote : Char) (text : List Char) : List Char → List Char × List Char
  | a :: b :: rest =>
    if a = quote then
      if b = quote then (text ++ [quote, quote], rest) else (text ++ [quote], b :: rest)
    else (text, a :: b :: rest)
  | [a] => if a = quote then (text ++ [quote], []) else (text, [a])
  | [] => (text, [])

/-- A line break right behind the opening quotes of a long string is no part of it. -/
def skipFirstBreak : List Char → List Char
  | '\n' :: cs => cs
  | cs => cs

/-- A long basic string behind its opening quotes. -/
def longBasic? (cs : List Char) : Option (List Char × List Char) :=
  (basicBody? true (skipFirstBreak cs)).map fun r => moreQuotes '"' r.1 r.2

/-- A long literal string behind its opening quotes. -/
def longLiteral? (cs : List Char) : Option (List Char × List Char) :=
  (longLiteralBody? (skipFirstBreak cs)).map fun r => moreQuotes '\'' r.1 r.2

/-! ### Keys -/

/-- The characters of bare names. -/
def isBare (c : Char) : Bool := c.isAlphanum || c == '-' || c == '_'

/-- A name of a key. -/
def name? : List Char → Option (String × List Char)
  | '\'' :: cs => (literal? cs).map fun r => (String.ofList r.1, r.2)
  | '"' :: cs => (basic? cs).map fun r => (String.ofList r.1, r.2)
  | cs =>
    let name := cs.takeWhile isBare
    if name.isEmpty then none else some (String.ofList name, cs.dropWhile isBare)

/-- A key with points, and the text behind it and the spaces that follow. The fuel bounds the number
of names. -/
def keyNames? : (fuel : Nat) → List Char → Option (List String × List Char)
  | 0, _ => none
  | fuel + 1, cs => do
    let (name, rest) ← name? cs
    match skipSpaces rest with
    | '.' :: rest => (keyNames? fuel (skipSpaces rest)).map fun r => (name :: r.1, r.2)
    | rest => some ([name], rest)

/-- A key with points, and the text behind it and the spaces that follow. -/
def key? (cs : List Char) : Option (List String × List Char) := keyNames? (cs.length + 1) cs

end LinterSuite.Toml
