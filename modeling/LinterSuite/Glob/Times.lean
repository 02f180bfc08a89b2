import LinterSuite.Glob.Sign
import LinterSuite.Text.Numeral

/-!
# Repetitions

What stands in front of a repetition sign is taken several times: at will behind a star, at least
once behind a plus sign, once at most behind a question mark, and so many times as the numbers
between braces say. A question mark or a plus sign behind it says how the repetition goes about its
work.

## Main definitions

* `GlobError`: why a pattern cannot be read
* `Times`: how often something is repeated
* `Times.ofSign`: the repetition that starts with a character
* `Manner.ofSigns`: how a repetition goes about its work

## Main results

* `Times.weight_of_ofSign`: reading a repetition leaves no more to read
-/

namespace LinterSuite

/-- Why a pattern cannot be read. -/
inductive GlobError where
  /-- Its signs make no sense together. -/
  | malformed
  /-- Something is repeated more often than can be counted. -/
  | tooManyTimes
  /-- A number of repetitions has too many digits. -/
  | numeral (e : Text.NumeralTooLong)
  deriving DecidableEq, Repr

/-- What is reported about a pattern that cannot be read, if anything. -/
def GlobError.message? : GlobError → Option String
  | malformed => none
  | tooManyTimes => some "the repetition number is too large"
  | numeral e => some e.message

/-- Something that a pattern cannot do without. -/
def GlobError.require {α : Type} : Option α → Except GlobError α
  | some a => .ok a
  | none => .error malformed

theorem GlobError.require_eq_ok {α : Type} {o : Option α} {a : α} (h : require o = .ok a) :
    o = some a := by
  cases o with
  | none => simp [require] at h
  | some b => simpa [require] using h

/-- The ASCII digits in front of some signs, and the rest. -/
def Sign.digits : List Sign → List Char × List Sign
  | .mark m :: rest =>
    if m.char.isDigit && !m.quoted then ((digits rest).1.cons m.char, (digits rest).2)
    else ([], .mark m :: rest)
  | signs => ([], signs)

theorem Sign.weight_digits_le (signs : List Sign) : weight (digits signs).2 ≤ weight signs := by
  fun_induction digits signs with
  | case1 m rest _ ih => simp only [weight]; omega
  | case2 => simp
  | case3 => simp

/-- How often something is repeated. -/
structure Times where
  least : Nat
  /-- Nothing if there is no upper limit. -/
  most : Option Nat
  deriving DecidableEq, Repr

namespace Times

/-- The numbers of repetitions from here on cannot be counted. -/
def uncountable : Nat := Nat.pow 2 32 - 1

/-- The number of repetitions that some digits write. -/
def ofDigits (ds : List Char) : Except GlobError Nat :=
  if Text.numeralLimit < ds.length then .error (.numeral ⟨ds.length⟩)
  else
    let n := ds.foldl (fun n d => 10 * n + (d.toNat - '0'.toNat)) 0
    if uncountable ≤ n then .error .tooManyTimes else .ok n

/-- How often something is repeated, from the digits of the limits. -/
def ofLimits (low high : List Char) : Except GlobError Times := do
  let least ← if low.isEmpty then pure 0 else ofDigits low
  let most ← if high.isEmpty then pure none else some <$> ofDigits high
  return ⟨least, most⟩

/-- The numbers between braces, behind the opening one, and what follows. Braces with anything else
between them are no repetition. -/
def inBraces? (signs : List Sign) : Option ((List Char × List Char) × List Sign) :=
  if Sign.startsWith '\x7d' signs then none
  else
    let (low, rest) := Sign.digits signs
    let (high, rest) :=
      if Sign.startsWith ',' rest then Sign.digits rest.tail else (low, rest)
    if Sign.startsWith '\x7d' rest then some ((low, high), rest.tail) else none

/-- The repetition that starts with a character, and what follows it, if it is one. -/
def ofSign (c : Char) (rest : List Sign) : Except GlobError (Option (Times × List Sign)) :=
  if c = '*' then .ok (some (⟨0, none⟩, rest))
  else if c = '+' then .ok (some (⟨1, none⟩, rest))
  else if c = '?' then .ok (some (⟨0, some 1⟩, rest))
  else if c = '\x7b' then
    match inBraces? rest with
    | none => .ok none
    | some ((low, high), rest) => (ofLimits low high).map fun t => some (t, rest)
  else .ok none

/-- The upper limit is no less than the lower one. -/
def isProper (t : Times) : Bool := t.most.all fun m => decide (t.least ≤ m)

theorem weight_of_inBraces? {signs rest : List Sign} {limits : List Char × List Char}
    (h : inBraces? signs = some (limits, rest)) : Sign.weight rest ≤ Sign.weight signs := by
  have h1 := Sign.weight_digits_le signs
  have h2 := Sign.weight_digits_le (Sign.digits signs).2.tail
  have h3 := Sign.weight_tail_le (Sign.digits signs).2
  have h4 := Sign.weight_tail_le (Sign.digits (Sign.digits signs).2.tail).2
  unfold inBraces? at h
  grind

theorem weight_of_ofSign {c : Char} {signs rest : List Sign} {t : Times}
    (h : ofSign c signs = .ok (some (t, rest))) : Sign.weight rest ≤ Sign.weight signs := by
  unfold ofSign at h
  split at h
  · grind
  split at h
  · grind
  split at h
  · grind
  split at h
  · split at h
    · simp at h
    · next low high r hb =>
      cases hl : ofLimits low high <;> simp only [hl, Except.map, reduceCtorEq, Except.ok.injEq,
        Option.some.injEq, Prod.mk.injEq] at h
      rw [← h.2]
      exact weight_of_inBraces? hb
  · simp at h

end Times

/-- How a repetition goes about its work, as the sign behind it says, and the signs behind. -/
def Manner.ofSigns (signs : List Sign) : Manner × List Sign :=
  if Sign.startsWith '?' signs then (lazy, signs.tail)
  else if Sign.startsWith '+' signs then (possessive, signs.tail)
  else (greedy, signs)

theorem Manner.weight_ofSigns_le (signs : List Sign) :
    Sign.weight (ofSigns signs).2 ≤ Sign.weight signs := by
  have := Sign.weight_tail_le signs
  unfold ofSigns
  grind

end LinterSuite
