import LinterSuite.Config.Value

/-!
# Merging configurations

A configuration nearer to the working directory is laid over the ones above it, key by key: tables
are merged, any other value replaces the earlier one, and a key keeps its kind. Tables may lie in
one another to any depth.

## Main definitions

* `KindChange`: a key that two configurations use for different kinds
* `Table.merge`: one table laid over another
* `Table.mergeAll`: many, the first at the bottom

## Main results

* `Table.merge_nil`, `Table.mergeEntries_nil`: an empty table changes nothing
-/

namespace LinterSuite

/-- A key that holds a value of one kind in a configuration and of another in an earlier one. -/
structure KindChange where
  /-- The keys that lead to it. -/
  path : List String
  /-- The later configuration. -/
  source : String
  later : Kind
  earlier : Kind
  deriving DecidableEq, Repr

/-- The report of a change of kind. -/
def KindChange.message (e : KindChange) : String :=
  let dotted := ".".intercalate e.path
  "\"" ++ dotted ++ "\" in \"" ++ e.source ++ "\" is a " ++ e.later.name ++
    " but an earlier config declares a " ++ e.earlier.name

mutual

/-- A value laid over an earlier value at a path. -/
def Value.mergeOver (source : String) (path : List String) (earlier : Value) :
    Value → Except KindChange Value
  | .table entries =>
    match earlier with
    | .table base => (Table.mergeEntries source path base entries).map .table
    | _ => .error ⟨path, source, .table, earlier.kind⟩
  | v => if earlier.kind = v.kind then .ok v else .error ⟨path, source, v.kind, earlier.kind⟩

/-- Entries laid over an earlier table at a path, one after the other. -/
def Table.mergeEntries (source : String) (path : List String) (base : Table) :
    List (String × Value) → Except KindChange Table
  | [] => .ok base
  | (key, v) :: rest =>
    match base.get? key with
    | none => Table.mergeEntries source path (base.put key v) rest
    | some earlier =>
      match Value.mergeOver source (path ++ [key]) earlier v with
      | .error e => .error e
      | .ok merged => Table.mergeEntries source path (base.put key merged) rest

end

namespace Table

/-- The table laid over an earlier one. -/
def merge (source : String) (base later : Table) : Except KindChange Table :=
  mergeEntries source [] base later

/-- Named tables laid over each other, the first at the bottom. -/
def mergeAll (fragments : List (String × Table)) : Except KindChange Table :=
  fragments.foldlM (fun base f => merge f.1 base f.2) []

@[simp] theorem mergeEntries_nil (source : String) (path : List String) (base : Table) :
    mergeEntries source path base [] = .ok base := by
  simp [mergeEntries]

theorem merge_nil (source : String) (base : Table) : merge source base [] = .ok base := by
  simp [merge]

end Table

end LinterSuite
