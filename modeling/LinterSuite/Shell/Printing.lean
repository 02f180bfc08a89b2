import LinterSuite.Text.Utf8

/-!
# Printing from shell scripts

The two commands that print their arguments know escapes behind a backslash: letters for control
characters, and octal numbers for single bytes.

## Main definitions

* `Shell.echo`: what is printed for some arguments, with spaces between them and a line break
* `Shell.printf`: what is printed for a format and its arguments
-/

namespace LinterSuite.Shell

/-- The bytes of a character. -/
def charBytes (c : Char) : List UInt8 := String.utf8EncodeChar c

/-- An octal digit. -/
def isOctal (c : Char) : Bool := '0' ≤ c && c ≤ '7'

/-- The byte that octal digits write. -/
def octalByte (cs : List Char) : UInt8 :=
  UInt8.ofNat (cs.foldl (fun n d => 8 * n + (d.toNat - '0'.toNat)) 0)

/-- The byte of a letter behind a backslash. -/
def escapeByte? : Char → Option UInt8
  | 'a' => some 7
  | 'b' => some 8
  | 'f' => some 12
  | 'n' => some 10
  | 'r' => some 13
  | 't' => some 9
  | 'v' => some 11
  | '\\' => some 92
  | _ => none

/-- The bytes of an escape behind its backslash and how many characters it has. Octal numbers have
up to three digits, and on request a zero in front of them. -/
def escape (zeroLed : Bool) (cs : List Char) : List UInt8 × Nat :=
  match cs with
  | [] => ([92], 0)
  | c :: rest =>
    if zeroLed ∧ c = '0' then
      let digits := (rest.take 3).takeWhile isOctal
      ([octalByte digits], digits.length + 1)
    else if isOctal c then
      let digits := (cs.take 3).takeWhile isOctal
      ([octalByte digits], digits.length)
    else match escapeByte? c with
      | some b => ([b], 1)
      | none => ([92], 0)

/-- The bytes of a text with escapes, and whether printing goes on behind it: a backslash with the
letter c ends it. -/
def unescaped : List Char → List UInt8 × Bool
  | [] => ([], true)
  | '\\' :: cs =>
    if cs.head? = some 'c' then ([], false)
    else
      let e := escape true cs
      let r := unescaped (cs.drop e.2)
      (e.1 ++ r.1, r.2)
  | c :: cs =>
    let r := unescaped cs
    (charBytes c ++ r.1, r.2)
termination_by cs => cs.length
decreasing_by all_goals (simp only [List.length_cons, List.length_drop]; omega)

/-- The arguments with spaces between them and a line break, which an option leaves out. -/
def echo (arguments : List String) : List UInt8 :=
  let (breaks, arguments) := match arguments with
    | "-n" :: rest => (false, rest)
    | all => (true, all)
  let (bytes, more) := unescaped (" ".intercalate arguments).toList
  bytes ++ if breaks ∧ more then [10] else []

/-- A conversion of a format: whether it stands to the left, its width and precision. -/
structure Conversion where
  left : Bool
  zeros : Bool
  width : Nat
  precision : Option Nat

/-- Bytes filled up to a width. -/
def Conversion.fill (c : Conversion) (number : Bool) (bytes : List UInt8) : List UInt8 :=
  let missing := c.width - bytes.length
  if c.left then bytes ++ List.replicate missing 32
  else if c.zeros ∧ number then List.replicate missing 48 ++ bytes
  else List.replicate missing 32 ++ bytes

/-- The number that an argument writes, zero if it writes none. -/
def argumentNumber (s : String) : Int := s.toInt?.getD 0

/-- The bytes of a conversion by its letter. -/
def Conversion.bytes (c : Conversion) (letter : Char) (argument : String) : List UInt8 :=
  let cut (bs : List UInt8) : List UInt8 := (c.precision.map bs.take).getD bs
  let number (cs : List Char) : List UInt8 := c.fill true (cs.flatMap charBytes)
  match letter with
  | 's' => c.fill false (cut (Text.utf8 argument))
  | 'b' => c.fill false (cut (unescaped argument.toList).1)
  | 'c' => c.fill false ((Text.utf8 argument).take 1)
  | 'd' | 'i' | 'u' => number (toString (argumentNumber argument)).toList
  | 'x' => number (Nat.toDigits 16 (argumentNumber argument).toNat)
  | 'o' => number (Nat.toDigits 8 (argumentNumber argument).toNat)
  | _ => []

/-- The number at the front of a format, and how many digits it has. -/
def formatNumber (cs : List Char) : Nat × Nat :=
  let digits := cs.takeWhile Char.isDigit
  (digits.foldl (fun n d => 10 * n + (d.toNat - '0'.toNat)) 0, digits.length)

/-- The conversion behind a percent sign, with its letter and how many characters it has. -/
def conversion? (cs : List Char) : Option (Conversion × Char × Nat) := do
  let flags := cs.takeWhile fun c => "-+ #0".toList.contains c
  let rest := cs.drop flags.length
  let (width, w) := formatNumber rest
  let rest := rest.drop w
  let (precision, p) := match rest with
    | '.' :: rest =>
      let r := formatNumber rest
      (some r.1, r.2 + 1)
    | _ => (none, 0)
  let letter ← (rest.drop p).head?
  return (⟨flags.contains '-', flags.contains '0', width, precision⟩, letter,
    flags.length + w + p + 1)

/-- One pass over a format: the bytes, and the arguments that are left. -/
def printfOnce : (format : List Char) → List String → List UInt8 × List String
  | [], args => ([], args)
  | '\\' :: cs, args =>
    let e := escape false cs
    let r := printfOnce (cs.drop e.2) args
    (e.1 ++ r.1, r.2)
  | '%' :: '%' :: cs, args =>
    let r := printfOnce cs args
    (37 :: r.1, r.2)
  | '%' :: cs, args =>
    match conversion? cs with
    | none => ([37], args)
    | some (c, letter, n) =>
      let r := printfOnce (cs.drop n) args.tail
      (c.bytes letter (args.headD "") ++ r.1, r.2)
  | c :: cs, args =>
    let r := printfOnce cs args
    (charBytes c ++ r.1, r.2)
termination_by cs => cs.length
decreasing_by all_goals (simp only [List.length_cons, List.length_drop]; omega)

/-- The format is used again as long as it takes arguments and some are left. -/
def printfAll : (fuel : Nat) → List Char → List String → List UInt8
  | 0, _, _ => []
  | fuel + 1, format, args =>
    let r := printfOnce format args
    r.1 ++ if r.2.isEmpty ∨ r.2.length = args.length then [] else printfAll fuel format r.2

/-- What is printed for a format and its arguments. -/
def printf (format : String) (arguments : List String) : List UInt8 :=
  printfAll (arguments.length + 1) format.toList arguments

end LinterSuite.Shell
