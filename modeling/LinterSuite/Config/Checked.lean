import LinterSuite.Config.Coercion

/-!
# Checking many settings at once

All settings of a section are checked, and all problems are reported, in order.

## Main definitions

* `Finding`: a problem and where it was found
* `Checked`: a value, or everything that is wrong
* `Checked.and`: both of two checks
-/

namespace LinterSuite

/-- A problem and the keys and positions that lead to it. -/
structure Finding where
  location : List String
  problem : Problem
  deriving DecidableEq, Repr

/-- The place of a finding in words; the section itself if the keys write nothing. -/
def Finding.place (f : Finding) : String :=
  let keys := ".".intercalate f.location
  if keys.isEmpty then "<section>" else keys

/-- The report of a finding. -/
def Finding.message (f : Finding) : String := f.place ++ ": " ++ f.problem.message

/-- A value, or all that stands against it. -/
abbrev Checked (α : Type) := Except (List Finding) α

namespace Checked

variable {α β : Type}

/-- The outcome of two checks, with the findings of both. -/
def and : Checked α → Checked β → Checked (α × β)
  | .ok a, .ok b => .ok (a, b)
  | .error fs, .ok _ => .error fs
  | .ok _, .error gs => .error gs
  | .error fs, .error gs => .error (fs ++ gs)

/-- A checked function applied to a checked value. -/
def apply (f : Checked (α → β)) (a : Checked α) : Checked β :=
  (and f a).map fun p => p.1 p.2

/-- A check of one place. -/
def at_ (location : List String) : Except Problem α → Checked α
  | .ok a => .ok a
  | .error p => .error [⟨location, p⟩]

/-- The outcomes of checks of the items of a list, counted from `index`. -/
def items (location : List String) (check : Value → Except Problem α) :
    (index : Nat) → List Value → Checked (List α)
  | _, [] => .ok []
  | index, v :: vs =>
    (and (at_ (location ++ [toString index]) (check v)) (items location check (index + 1) vs)).map
      fun p => p.1 :: p.2

end Checked

/-- The texts of an array of them. -/
def Value.toTexts (location : List String) : Value → Checked (List String)
  | .array vs => Checked.items location toText 0 vs
  | _ => .error [⟨location, .notList⟩]

end LinterSuite
