import LinterSuite.Config.Value
import LinterSuite.Number.DecimalText
import LinterSuite.Text.Numeral

/-!
# Dates and times of TOML

Dates and times are kept as their standard text: a letter between date and time, six places of a
second or none, and an offset in hours and minutes.

## Main definitions

* `Toml.Day`, `Toml.Clock`: a date and a time of day
* `Toml.moment?`: a date or time at the front of a text, if one begins there
-/

namespace LinterSuite.Toml

/-- The number that exactly `width` decimal digits write. -/
def fixedNumber? (width : Nat) (cs : List Char) : Option (Nat × List Char) :=
  let ds := cs.take width
  if ds.length = width ∧ ds.all Char.isDigit then
    some (Binary64.digitsValue ds, cs.drop width)
  else none

/-- A number in a given range that two digits write. -/
def pair? (low high : Nat) (cs : List Char) : Option (Nat × List Char) := do
  let (n, rest) ← fixedNumber? 2 cs
  if low ≤ n ∧ n ≤ high then some (n, rest) else none

/-- The text behind a character. -/
def expect? (c : Char) : List Char → Option (List Char)
  | d :: rest => if d = c then some rest else none
  | [] => none

/-- A date. -/
structure Day where
  year : Nat
  month : Nat
  day : Nat
  deriving DecidableEq, Repr

/-- A time of day. -/
structure Clock where
  hour : Nat
  minute : Nat
  second : Nat
  /-- Millionths of a second. -/
  micros : Nat
  deriving DecidableEq, Repr

/-- A year with a day more. -/
def isLeap (year : Nat) : Bool := year % 4 == 0 && (year % 100 != 0 || year % 400 == 0)

/-- The number of days of a month. -/
def daysOf (year month : Nat) : Nat :=
  if month = 2 then if isLeap year then 29 else 28
  else if month = 4 ∨ month = 6 ∨ month = 9 ∨ month = 11 then 30
  else 31

/-- A date that the calendar has. -/
def Day.isValid (d : Day) : Bool := 1 ≤ d.year && d.day ≤ daysOf d.year d.month

/-- A date at the front of a text; the day need not be one of its month. -/
def day? (cs : List Char) : Option (Day × List Char) := do
  let (year, rest) ← fixedNumber? 4 cs
  let (month, rest) ← pair? 1 12 (← expect? '-' rest)
  let (day, rest) ← pair? 1 31 (← expect? '-' rest)
  return (⟨year, month, day⟩, rest)

/-- The millionths of a second behind a point, and the text behind all their digits. -/
def micros? (cs : List Char) : Option (Nat × List Char) := do
  let rest ← expect? '.' cs
  let ds := rest.takeWhile Char.isDigit
  if ds.isEmpty then none
  else
    let six := (ds ++ List.replicate 6 '0').take 6
    some (Binary64.digitsValue six, rest.dropWhile Char.isDigit)

/-- A time of day at the front of a text. -/
def clock? (cs : List Char) : Option (Clock × List Char) := do
  let (hour, rest) ← pair? 0 23 cs
  let (minute, rest) ← pair? 0 59 (← expect? ':' rest)
  let (second, rest) ← pair? 0 59 (← expect? ':' rest)
  let (micros, rest) := (micros? rest).getD (0, rest)
  return (⟨hour, minute, second, micros⟩, rest)

/-- An offset in minutes at the front of a text. -/
def offset? : List Char → Option (Int × List Char)
  | [] => none
  | c :: cs =>
    if c = 'Z' ∨ c = 'z' then some (0, cs)
    else if c = '+' ∨ c = '-' then do
      let (hours, rest) ← pair? 0 23 cs
      let (minutes, rest) ← pair? 0 59 (← expect? ':' rest)
      let n : Int := 60 * hours + minutes
      return (if c = '-' then -n else n, rest)
    else none

/-- A number in decimal digits, zeros in front up to a width. -/
def padded (width n : Nat) : String :=
  let ds := Nat.toDigits 10 n
  String.ofList (List.replicate (width - ds.length) '0' ++ ds)

/-- The standard text of a date. -/
def Day.text (d : Day) : String :=
  padded 4 d.year ++ "-" ++ padded 2 d.month ++ "-" ++ padded 2 d.day

/-- The standard text of a time of day. -/
def Clock.text (c : Clock) : String :=
  padded 2 c.hour ++ ":" ++ padded 2 c.minute ++ ":" ++ padded 2 c.second ++
    (if c.micros = 0 then "" else "." ++ padded 6 c.micros)

/-- The standard text of an offset in minutes. -/
def offsetText (minutes : Int) : String :=
  (if minutes < 0 then "-" else "+") ++ padded 2 (minutes.natAbs / 60) ++ ":" ++
    padded 2 (minutes.natAbs % 60)

/-- A date at the front of a text, with the time of day and the offset behind it, or a time of day
alone. The inner value is missing if the calendar does not have the date. -/
def moment? (cs : List Char) : Option (Option Value × List Char) :=
  match day? cs with
  | some (d, rest) =>
    let clock := match rest with
      | t :: rest => if t = 'T' ∨ t = 't' ∨ t = ' ' then clock? rest else none
      | [] => none
    match clock with
    | none => some (if d.isValid then some (.moment .date d.text) else none, rest)
    | some (c, rest) =>
      let offset := offset? rest
      let text := d.text ++ "T" ++ c.text ++ (offset.map fun o => offsetText o.1).getD ""
      some (if d.isValid then some (.moment .datetime text) else none,
        (offset.map (·.2)).getD rest)
  | none => (clock? cs).map fun (c, rest) => (some (.moment .time c.text), rest)

end LinterSuite.Toml
