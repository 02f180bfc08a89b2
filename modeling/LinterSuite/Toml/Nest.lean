import LinterSuite.Config.Value

/-!
# Nested tables under construction

A document builds its tables piece by piece: headers open a table or add one to an array of tables,
and keys with points reach into tables further down. What a header or a key has finished may not be
opened again.

## Main definitions

* `Toml.Openness`: how a table came to be, and so what may still be added
* `Toml.Nest`: a place of an unfinished document
* `Toml.Nests.openTable?`, `Toml.Nests.addTable?`: what the two kinds of headers do
* `Toml.Nests.define?`: what a key with a value does
* `Toml.Nests.toTable`: the finished table

## Main results

* `Toml.Nests.define?_of_lookup`: a key has one value
-/

namespace LinterSuite.Toml

/-- How a table came to be. -/
inductive Openness where
  /-- On the way to a table of a header. -/
  | implied
  /-- By its header. -/
  | headed
  /-- By a key with points in a section. -/
  | dotted (section_ : Nat)
  deriving DecidableEq, Repr

/-- A table that a key with points may reach into in a section. -/
def Openness.admits (section_ : Nat) : Openness → Bool
  | implied => true
  | headed => false
  | dotted s => s == section_

/-- A place of an unfinished document. -/
inductive Nest where
  /-- A value, with nothing to be added. -/
  | leaf (v : Value)
  | table (openness : Openness) (entries : List (String × Nest))
  /-- An array of tables: the finished ones, and the last. -/
  | tables (finished : List Table) (last : List (String × Nest))

/-- The named places of an unfinished table. -/
abbrev Nests := List (String × Nest)

mutual

/-- The finished value of a place. -/
def Nest.toValue : Nest → Value
  | .leaf v => v
  | .table _ es => .table (Nests.toTable es)
  | .tables finished last => .array ((finished ++ [Nests.toTable last]).map .table)

/-- The finished table. -/
def Nests.toTable : List (String × Nest) → Table
  | [] => []
  | (key, n) :: rest => (key, n.toValue) :: Nests.toTable rest

end

namespace Nests

/-- Changes the table that names lead to, tables on the way made if there are none. The last table
of an array stands for it. Values are closed. -/
def within? (change : Nests → Option Nests) : List String → Nests → Option Nests
  | [], es => change es
  | name :: path, es =>
    match es.lookup name with
    | none => (within? change path []).map fun sub => Keyed.put es name (.table .implied sub)
    | some (.leaf _) => none
    | some (.table o sub) =>
      (within? change path sub).map fun sub => Keyed.put es name (.table o sub)
    | some (.tables finished last) =>
      (within? change path last).map fun last => Keyed.put es name (.tables finished last)

/-- Opens a table by its header. -/
def openTable? (key : List String) (es : Nests) : Option Nests :=
  let name := key.getLast?.getD ""
  within? (fun es => match es.lookup name with
    | none => some (Keyed.put es name (.table .headed []))
    | some (.table .implied sub) => some (Keyed.put es name (.table .headed sub))
    | some _ => none) key.dropLast es

/-- Adds a table to an array of tables by its header. -/
def addTable? (key : List String) (es : Nests) : Option Nests :=
  let name := key.getLast?.getD ""
  within? (fun es => match es.lookup name with
    | none => some (Keyed.put es name (.tables [] []))
    | some (.tables finished last) =>
      some (Keyed.put es name (.tables (finished ++ [toTable last]) []))
    | some _ => none) key.dropLast es

/-- Gives a key with points its value, in a section. -/
def define? (section_ : Nat) (v : Value) : List String → Nests → Option Nests
  | [], _ => none
  | [name], es => if (es.lookup name).isNone then some (Keyed.put es name (.leaf v)) else none
  | name :: path, es =>
    let reach (sub : Nests) : Option Nests :=
      (define? section_ v path sub).map fun sub => Keyed.put es name (.table (.dotted section_) sub)
    match es.lookup name with
    | none => reach []
    | some (.table o sub) => if o.admits section_ then reach sub else none
    | some _ => none

theorem define?_of_lookup {section_ : Nat} {v : Value} {name : String} {es : Nests} {n : Nest}
    (h : es.lookup name = some n) : define? section_ v [name] es = none := by
  simp [define?, h]

end Nests

end LinterSuite.Toml
