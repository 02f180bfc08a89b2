import LinterSuite.Cache.Record
import LinterSuite.Cache.Snapshot

/-!
# Stores of records

Records are kept in memory, or each in an entry file of a directory, named for the digest of the
linter's name. Writing an entry is best effort. An entry that cannot be understood is as good as
none.

## Main definitions

* `CacheStore`: a store in memory or in a directory
* `CacheStore.load`, `CacheStore.save`: the record of a linter
* `EntryError`: what makes reading an entry fail altogether

## Main results

* `CacheStore.load_memory_save_self`: memory gives back what was saved last
-/

namespace LinterSuite

/-- A store of records. -/
inductive CacheStore where
  | memory (records : List (String × RunRecord))
  | directory (path : Path)
  deriving Repr

/-- What makes reading an entry fail altogether. -/
inductive EntryError where
  /-- Its bytes are no text. -/
  | notText
  | numeral (error : Text.NumeralTooLong)
  /-- Its values are nested too deeply. -/
  | tooDeep (at_ : Text.Nesting)
  /-- Its path cannot be worked with. -/
  | path (error : FileTree.PathError)
  deriving DecidableEq, Repr

namespace CacheStore

/-- The entry file of a linter. -/
def entryPath (digest : Digest) (dir : Path) (name : String) : Path :=
  dir.child (digest (Text.utf8 name) ++ ".json")

/-- The record of an entry file, if it is one of that linter. -/
def readEntry (name : String) (bytes : List UInt8) : Except EntryError (Option RunRecord) :=
  match Text.ofUtf8? bytes with
  | none => .error .notText
  | some s =>
    match Json.read s with
    | .error .malformed => .ok none
    | .error (.numeral e) => .error (.numeral e)
    | .error (.tooDeep n) => .error (.tooDeep n)
    | .ok v => .ok ((RunRecord.ofValue? v).filter (·.name == name))

/-- The record of a linter. -/
def load (digest : Digest) (t : FileTree) (name : String) :
    CacheStore → Except EntryError (Option RunRecord)
  | .memory records => .ok (records.lookup name)
  | .directory dir =>
    match t.ask FileTree.isFile (entryPath digest dir name) with
    | .error e => .error (.path e)
    | .ok _ =>
      match t.read (entryPath digest dir name) with
      | .ok bytes => readEntry name bytes
      | .error _ => .ok none

/-- The tree with an entry written in a directory, as far as that is possible. -/
def writeEntry (digest : Digest) (t : FileTree) (dir : Path) (r : RunRecord) : FileTree :=
  match t.makeDirs dir with
  | (made, .error _) => made
  | (made, .ok _) =>
    (made.write (entryPath digest dir r.name) (Text.utf8 r.text)).toOption.getD made

/-- The store and the tree with a record saved under its name. -/
def save (digest : Digest) (t : FileTree) (r : RunRecord) : CacheStore → CacheStore × FileTree
  | .memory records => (.memory (Keyed.put records r.name r), t)
  | .directory dir => (.directory dir, writeEntry digest t dir r)

/-- A store in memory without a record. -/
def isEmptyMemory : CacheStore → Bool
  | .memory records => records.isEmpty
  | .directory _ => false

theorem load_memory_save_self (digest : Digest) (t t' : FileTree)
    (records : List (String × RunRecord)) (r : RunRecord) :
    load digest t' r.name (save digest t r (.memory records)).1 = .ok (some r) := by
  simp [load, save]

end CacheStore

end LinterSuite
