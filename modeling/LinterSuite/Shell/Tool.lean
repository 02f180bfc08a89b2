import LinterSuite.Shell.State

/-!
# Tools of shell scripts

The few standard tools that scripts may use. They read files or their input and write text.

## Main definitions

* `Shell.condition?`: the test of a condition
* `Shell.count`: counting lines, words and bytes
* `Shell.transliterate`: deleting and replacing characters
* `Shell.nanoseconds?`: a duration
* `Shell.signal?`: a signal by its name or number
-/

namespace LinterSuite.Shell

/-- The integers that a shell counts with. -/
def isCountable (n : Int) : Bool := decide (-(Int.pow 2 63) ≤ n ∧ n < Int.pow 2 63)

/-- The number that a text writes, in decimal digits behind a sign, perhaps with blanks around. -/
def integer? (s : String) : Option Int :=
  let cs := Text.stripChars s.toList
  let negative := cs.head? = some '-'
  let digits := if negative || cs.head? = some '+' then cs.tail else cs
  let n : Int := digits.foldl (fun n d => 10 * n + (d.toNat - '0'.toNat)) 0
  let n := if negative then -n else n
  if !digits.isEmpty && digits.all Char.isDigit && isCountable n then some n else none

/-- The number from zero up that a text writes, if it is small enough for a status. -/
def natural? (s : String) : Option Nat :=
  ((integer? s).filter fun n => decide (0 ≤ n ∧ n < Int.pow 2 31)).map Int.toNat

/-- A comparison of two numbers by its name. -/
def comparison? (name : String) : Option (Int → Int → Bool) :=
  match name with
  | "-eq" => some fun a b => a == b
  | "-ne" => some fun a b => a != b
  | "-lt" => some fun a b => a < b
  | "-le" => some fun a b => a ≤ b
  | "-gt" => some fun a b => b < a
  | "-ge" => some fun a b => b ≤ a
  | _ => none

/-- A question about what is at a path, by its name. -/
def pathQuestion? (t : FileTree) (name : String) : Option (Path → Bool) :=
  match name with
  | "-e" | "-r" | "-w" => some t.pathExists
  | "-f" => some t.isFile
  | "-d" => some t.isDir
  | "-x" => some fun p => t.isDir p || t.isRunnable p
  | "-s" => some fun p => (t.times p).toOption.any fun x => x.2 != 0
  | _ => none

/-- A question about one text by its name. The empty text is no path. -/
def question? (t : FileTree) (name : String) : Option (String → Bool) :=
  match name with
  | "-n" => some fun s => !s.isEmpty
  | "-z" => some String.isEmpty
  | name => (pathQuestion? t name).map fun q s => !s.isEmpty && q (Path.ofString s)

/-- Whether a condition holds, if it is one. -/
def condition? (t : FileTree) : List String → Option Bool
  | [] => some false
  | [s] => some (!s.isEmpty)
  | ["!", s] => some s.isEmpty
  | [name, s] => (question? t name).map (· s)
  | ["!", name, s] => (question? t name).map fun q => !q s
  | [a, "=", b] => some (a == b)
  | [a, "!=", b] => some (a != b)
  | [a, name, b] => do return (← comparison? name) (← integer? a) (← integer? b)
  | ["!", a, name, b] => (condition? t [a, name, b]).map (!·)
  | _ => none

/-- The first operand of a comparison of numbers that is none. -/
def illegalNumber? : List String → Option String
  | [a, name, b] =>
    if (comparison? name).isSome then [a, b].find? fun s => (integer? s).isNone else none
  | ["!", a, name, b] => illegalNumber? [a, name, b]
  | _ => none

/-- How many words some bytes are. -/
def wordCount (bytes : List UInt8) : Nat :=
  let isSpace (b : UInt8) : Bool := b == 32 || (9 ≤ b && b ≤ 13)
  (bytes.foldl (fun (acc : Nat × Bool) b =>
    if isSpace b then (acc.1, false) else (if acc.2 then acc.1 else acc.1 + 1, true)) (0, false)).1

/-- What is counted on request: lines, words, bytes. -/
def count (options : List String) (bytes : List UInt8) : List Nat :=
  let wants (c : Char) : Bool := options.isEmpty || options.any fun o => o.toList.contains c
  (if wants 'l' then [bytes.count 10] else []) ++ (if wants 'w' then [wordCount bytes] else []) ++
    (if wants 'c' then [bytes.length] else [])

/-- A number as text with blanks in front up to a width. -/
def aligned (width n : Nat) : String :=
  let s := toString n
  String.ofList (List.replicate (width - s.length) ' ') ++ s

/-- The report of a count: a single number, or columns. -/
def countText (counts : List Nat) : String :=
  match counts with
  | [n] => toString n
  | ns => " ".intercalate (ns.map (aligned 7))

/-- The bytes of a set of characters with ranges and escapes. -/
def byteSet : List Char → List UInt8
  | '\\' :: 'n' :: cs => 10 :: byteSet cs
  | '\\' :: 't' :: cs => 9 :: byteSet cs
  | '\\' :: 'r' :: cs => 13 :: byteSet cs
  | a :: '-' :: b :: cs =>
    ((List.range (b.toNat + 1 - a.toNat)).map fun i => UInt8.ofNat (a.toNat + i)) ++ byteSet cs
  | c :: cs => String.utf8EncodeChar c ++ byteSet cs
  | [] => []

/-- Bytes with those of a set deleted, or replaced by those of another, whose last one counts for
all that are missing. -/
def transliterate (arguments : List String) (bytes : List UInt8) : List UInt8 :=
  match arguments with
  | ["-d", s] =>
    let set := byteSet s.toList
    bytes.filter fun b => !set.contains b
  | [s, s'] =>
    let set := byteSet s.toList
    let images := byteSet s'.toList
    bytes.map fun b => match set.findIdx? (· == b) with
      | some i => (images[i]?).getD (images.getLast?.getD b)
      | none => b
  | _ => bytes

/-- The nanoseconds of a number of seconds, which may have a fraction. -/
def nanoseconds? (s : String) : Option Int :=
  let cs := s.toList
  let whole := cs.takeWhile Char.isDigit
  let places := (cs.drop whole.length).drop 1
  let value (ds : List Char) : Nat := ds.foldl (fun n d => 10 * n + (d.toNat - '0'.toNat)) 0
  if (whole.isEmpty && places.isEmpty) || !places.all Char.isDigit ||
      !((cs.drop whole.length).head?.all (· == '.')) then none
  else
    let fraction := (places ++ List.replicate 9 '0').take 9
    some (value whole * Nat.pow 10 9 + value fraction : Nat)

/-- The numbers of signals by name. -/
def signals : List (String × Nat) :=
  [("HUP", 1), ("INT", 2), ("QUIT", 3), ("ABRT", 6), ("KILL", 9), ("USR1", 10), ("SEGV", 11),
    ("USR2", 12), ("PIPE", 13), ("ALRM", 14), ("TERM", 15)]

/-- The number of a signal. -/
def signal? (s : String) : Option Nat :=
  match s.toNat? with
  | some n => some n
  | none => signals.lookup (if s.startsWith "SIG" then (s.drop 3).toString else s)

/-- The signal and the process that the arguments of a request for a signal name. -/
def signalRequest? : List String → Option (Nat × String)
  | ["-s", name, process] => (signal? name).map (·, process)
  | [option, process] =>
    if option.startsWith "-" then (signal? (option.drop 1).toString).map (·, process) else none
  | [process] => some (15, process)
  | _ => none

end LinterSuite.Shell
