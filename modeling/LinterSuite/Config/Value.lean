import LinterSuite.Keyed
import LinterSuite.Number.Binary64

/-!
# Configuration values

The values that a configuration document can hold. A table keeps its keys in the order in which
they first appeared.

## Main definitions

* `Value`, `Table`: a value, and a list of keys with their values
* `Kind`: the kinds that a merge tells apart
* `Table.put`: a table with a key set

## Main results

* `Table.get?_put_self`, `Table.get?_put_of_ne`: what a key holds after another was set
-/

namespace LinterSuite

/-- The kinds of dates and times. -/
inductive MomentKind where
  | date | time | datetime
  deriving DecidableEq, Repr

/-- A value of a configuration document, or of a cache entry, where it may be nothing. -/
inductive Value where
  | nothing
  | string (s : String)
  /-- A text with half a character in it. -/
  | brokenString
  | integer (n : Int)
  | float (x : Binary64)
  | boolean (b : Bool)
  /-- A date or time, in its standard text. -/
  | moment (kind : MomentKind) (text : String)
  | array (items : List Value)
  | table (entries : List (String × Value))
  deriving Repr

instance : Inhabited Value := ⟨.nothing⟩

/-- Keys with their values, in order. -/
abbrev Table := List (String × Value)

/-- The kinds of values that a merge tells apart; all numbers are one kind. -/
inductive Kind where
  | nothing | table | array | boolean | number | string
  | moment (kind : MomentKind)
  deriving DecidableEq, Repr

/-- The name of a kind in messages. -/
def Kind.name : Kind → String
  | nothing => "NoneType"
  | table => "table"
  | array => "array"
  | boolean => "boolean"
  | number => "number"
  | string => "string"
  | moment .date => "date"
  | moment .time => "time"
  | moment .datetime => "datetime"

/-- The kind of a value. -/
def Value.kind : Value → Kind
  | .nothing => .nothing
  | .string _ | .brokenString => .string
  | .integer _ | .float _ => .number
  | .boolean _ => .boolean
  | .moment k _ => .moment k
  | .array _ => .array
  | .table _ => .table

namespace Table

/-- The value of a key. -/
def get? (t : Table) (key : String) : Option Value := t.lookup key

/-- The table with a key set, in its old place or else at the end. -/
def put (t : Table) (key : String) (v : Value) : Table := Keyed.put t key v

/-- The keys in order. -/
def keys (t : Table) : List String := t.map (·.1)

/-- The table of some entries; of two with the same key the later value counts. -/
def ofEntries (entries : List (String × Value)) : Table :=
  entries.foldl (fun t e => put t e.1 e.2) []

@[simp] theorem get?_put_self (t : Table) (key : String) (v : Value) :
    get? (put t key v) key = some v := Keyed.lookup_put_self t key v

theorem get?_put_of_ne {t : Table} {key other : String} (v : Value) (h : other ≠ key) :
    get? (put t key v) other = get? t other := Keyed.lookup_put_of_ne v h

end Table

end LinterSuite
