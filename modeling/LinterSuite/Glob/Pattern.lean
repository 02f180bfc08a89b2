import LinterSuite.Glob.Reading
import LinterSuite.Text.Blank
import LinterSuite.Text.Pieces

/-!
# Glob patterns

A pattern describes slash-separated relative paths. A star stands for any characters of one
component, a question mark for one of them, brackets for one character of a class, and a component
of two stars for any number of directories. A pattern with a slash inside is anchored at the top;
any other may match at every depth. A slash at the end asks for a directory.

## Main definitions

* `Glob.segmentSigns`, `Glob.componentSigns`: what the components of a pattern write
* `Glob.compile`: the pattern of a text, if its classes can be read
* `Glob.compileAll`: the patterns of several texts, without blank ones and repetitions

## Main results

* `Glob.length_of_splitClass?`: reading a class consumes text
-/

namespace LinterSuite

namespace Glob

/-- A character that stands for itself. -/
def charSign (c : Char) : Sign := .part (.one (.char c)) [⟨c, true⟩]

/-- One character of a component. -/
def oneSign : Sign := .part (.one .inComponent) (Mark.plains "[^/]".toList)

/-- Any characters of a component. -/
def starSign : Sign := .part ⟨.inComponent, false⟩ (Mark.plains "[^/]*".toList)

/-- Any directories. -/
def directoriesSign : Sign := .part ⟨.directories, false⟩ (Mark.plains "(?:[^/]+/)*".toList)

/-- Anything at all. -/
def anythingSign : Sign := .part ⟨.anything, false⟩ (Mark.plains ".*".toList)

/-- What is written for the class with text `body` between its brackets, behind the opening one. A
negated class never admits the separator: it stands as a member in front of the body, where it may
become the start of a range, and where a bracket that follows closes the class. -/
def classMarks (body : List Char) : List Mark :=
  let negated := match body with
    | '!' :: _ | '^' :: _ => true
    | _ => false
  let listed := (if negated then body.drop 1 else body).map fun c => ⟨c, c = '\\'⟩
  (if negated then Mark.plains ['^', separator] else []) ++ listed ++ [.plain ']']

/-- A class: one character if the last bracket closes it. A class that is closed before is read
together with what follows. -/
def classSigns (body : List Char) : List Sign :=
  let written := Mark.plain '[' :: classMarks body
  match CharClass.ofMarks? (classMarks body) with
  | some (k, []) => [.part (.one (.oneOf k)) written]
  | _ => Sign.ofMarks written

/-- How many characters behind an opening bracket cannot close it: a negation sign, and a closing
bracket in the first place. -/
def fixedInClass : List Char → Nat
  | '!' :: ']' :: _ | '^' :: ']' :: _ => 2
  | '!' :: _ | '^' :: _ | ']' :: _ => 1
  | _ => 0

/-- Splits the text behind an opening bracket at the bracket that closes the class. -/
def splitClass? (cs : List Char) : Option (List Char × List Char) :=
  let fixed := cs.take (fixedInClass cs)
  let unfixed := cs.drop (fixedInClass cs)
  match unfixed.dropWhile (· != ']') with
  | [] => none
  | _ :: rest => some (fixed ++ unfixed.takeWhile (· != ']'), rest)

theorem length_of_splitClass? {cs body rest : List Char}
    (h : splitClass? cs = some (body, rest)) : rest.length < cs.length := by
  unfold splitClass? at h
  simp only at h
  split at h
  · simp at h
  · next c r heq =>
    have hs := (List.dropWhile_sublist (fun x => x != ']')
      (l := cs.drop (fixedInClass cs))).length_le
    rw [heq] at hs
    simp only [Option.some.injEq, Prod.mk.injEq] at h
    rw [← h.2]
    simp only [List.length_cons, List.length_drop] at hs
    omega

/-- What one component of a pattern writes. A bracket that no other closes stands for itself. -/
def segmentSigns : List Char → List Sign
  | [] => []
  | '*' :: cs =>
    have := (List.dropWhile_sublist (fun x => x == '*') (l := cs)).length_le
    starSign :: segmentSigns (cs.dropWhile (· == '*'))
  | '?' :: cs => oneSign :: segmentSigns cs
  | '[' :: cs =>
    match h : splitClass? cs with
    | none => charSign '[' :: segmentSigns cs
    | some (body, rest) =>
      have := length_of_splitClass? h
      classSigns body ++ segmentSigns rest
  | c :: cs => charSign c :: segmentSigns cs
termination_by cs => cs.length
decreasing_by all_goals simp only [List.length_cons]; omega

/-- What the components of a pattern write: two stars are directories, at the end everything. -/
def componentSigns : List (List Char) → List Sign
  | [] => []
  | [segment] => if segment = ['*', '*'] then [anythingSign] else segmentSigns segment
  | segment :: segments =>
    if segment = ['*', '*'] then directoriesSign :: componentSigns segments
    else segmentSigns segment ++ charSign separator :: componentSigns segments

/-- The components of a path or pattern; an empty text has one empty component. -/
def splitComponents (cs : List Char) : List (List Char) := Text.pieces separator cs

/-- A text without the dot components in front. -/
def dropDots : List Char → List Char
  | '.' :: '/' :: cs => dropDots cs
  | cs => cs

end Glob

/-- A pattern, with the text that it was read from. -/
structure Glob where
  source : String
  expression : Expression
  /-- It describes directories only. -/
  dirOnly : Bool
  deriving DecidableEq, Repr

namespace Glob

/-- The pattern of a text, unless one of its classes cannot be read. -/
def compile (source : String) : Except GlobError Glob := do
  let cleaned := dropDots (Text.stripChars source.toList)
  let body := (cleaned.reverse.dropWhile (· == separator)).reverse
  let anchored := body.contains separator
  let relative := body.dropWhile (· == separator)
  let signs := if relative.isEmpty then [] else componentSigns (splitComponents relative)
  let expression ← Expression.ofSigns (if anchored then signs else directoriesSign :: signs)
  return { source, expression, dirOnly := cleaned.getLast? == some separator }

/-- A list without the later copies of its members. -/
def firstOccurrences : List String → List String
  | [] => []
  | s :: ss => s :: (firstOccurrences ss).filter (· != s)

/-- The texts that are patterns: each once, and no blank one. -/
def usable (sources : List String) : List String :=
  (firstOccurrences sources).filter fun s => !Text.isBlankText s

/-- The patterns of some texts, or what is wrong with the first that cannot be read. -/
def compileAll (sources : List String) : Except GlobError (List Glob) :=
  (usable sources).mapM compile

end Glob

end LinterSuite
