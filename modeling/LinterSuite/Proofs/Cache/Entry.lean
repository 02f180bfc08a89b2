import LinterSuite.Cache.Store
import LinterSuite.Proofs.FileTree.Entries
import LinterSuite.Proofs.Json.Blocks
import LinterSuite.Proofs.Text.Utf8

/-!
# Stores give back what was saved

A store is compared with the list of the records that were saved in it, the last first. Under a name
it gives back the last record of that name, and nothing if there is none. Of a store in a directory
this can only be said as long as nobody else changes the entries, and writing them goes through.

## Main definitions

* `RunRecord.IsShort`: a record with a time that can be read back
* `CacheStore.Stands`: what an entry file is if a record, or none, was saved in it
* `CacheStore.Keeps`: a store that agrees with the records saved in it
* `CacheStore.Accepts`: a store in which a record can be saved
* `CacheStore.SameEntries`: two trees with the same entries of a store

## Main results

* `CacheStore.readEntry_text`: a record is read back from its text
* `CacheStore.accepts_of_hasDir`: a directory that is there accepts records
* `CacheStore.keeps_save`: saving keeps a store in agreement with its records
* `CacheStore.load_eq_ok_some_iff`: such a store gives back the last record of a name
-/

namespace LinterSuite

/-! ### The text of a record -/

/-- A record with a time that has no more digits than are read. -/
def RunRecord.IsShort (r : RunRecord) : Prop :=
  (Nat.toDigits 10 r.latestMtime.natAbs).length ≤ Text.numeralLimit

/-- The table of a record. -/
def RunRecord.table (r : RunRecord) : Table :=
  [("name", .string r.name), ("fingerprint", .string r.fingerprint),
    ("files_digest", .string r.filesDigest), ("latest_mtime_ns", .integer r.latestMtime),
    ("content_digest", (r.contentDigest.map Value.string).getD .nothing),
    ("succeeded", .boolean r.succeeded)]

/-- The members of a record as they are written. -/
def RunRecord.members (r : RunRecord) : List (String × String) :=
  [("name", Json.string r.name), ("fingerprint", Json.string r.fingerprint),
    ("files_digest", Json.string r.filesDigest), ("latest_mtime_ns", toString r.latestMtime),
    ("content_digest", Json.stringOrNull r.contentDigest), ("succeeded", Json.boolean r.succeeded)]

theorem RunRecord.text_eq_block (r : RunRecord) : r.text = Json.block r.members := rfl

theorem RunRecord.members_ne_nil (r : RunRecord) : r.members ≠ [] := List.cons_ne_nil _ _

theorem RunRecord.writesMember_members {r : RunRecord} (h : r.IsShort) :
    List.Forall₂ Json.WritesMember r.members r.table :=
  .cons ⟨rfl, Json.writes_string _⟩ <| .cons ⟨rfl, Json.writes_string _⟩ <|
    .cons ⟨rfl, Json.writes_string _⟩ <| .cons ⟨rfl, Json.writes_integer h⟩ <|
    .cons ⟨rfl, Json.writes_stringOrNull _⟩ <| .cons ⟨rfl, Json.writes_boolean _⟩ .nil

theorem RunRecord.read_text {r : RunRecord} (h : r.IsShort) :
    Json.read r.text = .ok (.table r.table) := by
  have htable : Table.ofEntries r.table = r.table := by
    simp [RunRecord.table, Table.ofEntries, Table.put, Keyed.put]
  rw [r.text_eq_block, Json.read_block (writesMember_members h) r.members_ne_nil, htable]

theorem RunRecord.ofValue?_table (r : RunRecord) : ofValue? (.table r.table) = some r := by
  obtain ⟨name, fingerprint, filesDigest, latestMtime, contentDigest, succeeded⟩ := r
  cases contentDigest <;>
    simp [ofValue?, contentDigest?, RunRecord.table, Table.member, Table.get?, List.lookup_cons,
      Value.optional, Value.toText, Value.toInteger, Value.toBoolean, Except.toOption]

namespace CacheStore

variable {digest : Digest}

/-- A record is read back from its text, under its own name only. -/
theorem readEntry_text {r : RunRecord} (h : r.IsShort) (name : String) :
    readEntry name (Text.utf8 r.text) = .ok (if r.name = name then some r else none) := by
  simp only [readEntry, Text.ofUtf8?_utf8, RunRecord.read_text h, RunRecord.ofValue?_table]
  by_cases hname : r.name = name <;> simp [Option.filter, hname]

/-! ### Entry files -/

/-- The name of the entry file of a linter. -/
def entryName (digest : Digest) (name : String) : String := digest (Text.utf8 name) ++ ".json"

theorem entryPath_eq (digest : Digest) (dir : Path) (name : String) :
    entryPath digest dir name = dir.child (entryName digest name) := rfl

theorem entryName_ne {text : String} (htext : text.length < 5) (digest : Digest) (name : String) :
    entryName digest name ≠ text := by
  intro h
  have hlength := congrArg String.length h
  rw [entryName, String.length_append] at hlength
  have hjson : (".json" : String).length = 5 := rfl
  omega

theorem entryName_ne_dot (digest : Digest) (name : String) : entryName digest name ≠ "." :=
  entryName_ne (by decide) digest name

theorem entryName_ne_dots (digest : Digest) (name : String) : entryName digest name ≠ ".." :=
  entryName_ne (by decide) digest name

/-- The entry files of two linters are one exactly if their names have the same digest. -/
theorem entryName_eq_iff {name name' : String} :
    entryName digest name = entryName digest name' ↔
      digest (Text.utf8 name) = digest (Text.utf8 name') := by
  simp [entryName]

/-- What an entry file is if a record, or none, was saved in it. -/
def Stands (entry : Option Node) : Option RunRecord → Prop
  | none => entry = none
  | some r => r.IsShort ∧ ∃ data, entry = some (.file data) ∧ data.content = Text.utf8 r.text

theorem Stands.isFree {entry : Option Node} {r : Option RunRecord} (h : Stands entry r) :
    Node.IsFree entry := by
  cases r with
  | none => exact .inl h
  | some r =>
    obtain ⟨-, data, hentry, -⟩ := h
    exact .inr ⟨data, hentry⟩

/-- A record that stands in the entry file of a linter is read from it if it has that name. -/
theorem load_of_stands {t : FileTree} {dir : Path} {name : String} {saved : Option RunRecord}
    (h : Stands (t.child? dir (entryName digest name)) saved) (r : RunRecord) :
    load digest t name (.directory dir) = .ok (some r) ↔ saved = some r ∧ r.name = name := by
  have hdot := entryName_ne_dot digest name
  have hdots := entryName_ne_dots digest name
  simp only [load, entryPath_eq]
  cases saved with
  | none =>
    -- Without an entry nothing can be read, whether or not it can be asked for.
    obtain ⟨e, he⟩ := FileTree.stat_of_child?_none hdot hdots h
    have hread : t.read (dir.child (entryName digest name)) = .error e := by
      simp [FileTree.read, he, bind, Except.bind]
    simp only [hread, reduceCtorEq, false_and, iff_false]
    split <;> simp
  | some saved =>
    obtain ⟨hshort, data, hentry, hcontent⟩ := h
    have hstat := FileTree.stat_of_child?_file hdot hdots hentry
    have hread : t.read (dir.child (entryName digest name)) = .ok (Text.utf8 saved.text) := by
      simp [FileTree.read, hstat, hcontent, bind, Except.bind, pure, Except.pure]
    simp only [FileTree.ask, hstat, hread, readEntry_text hshort, Except.ok.injEq]
    by_cases hname : saved.name = name
    · simp only [hname, if_true, Option.some.injEq]
      exact ⟨fun heq => ⟨heq, heq ▸ hname⟩, And.left⟩
    · simp only [hname, if_false, reduceCtorEq, Option.some.injEq, false_iff, not_and]
      rintro rfl
      exact hname

/-! ### Stores and the records saved in them -/

/-- The last record saved in the entry file of a linter. -/
def lastInEntry (digest : Digest) (records : List RunRecord) (name : String) : Option RunRecord :=
  records.find? fun r => digest (Text.utf8 r.name) == digest (Text.utf8 name)

/-- A store that agrees with the records saved in it, the last first. An entry file must be as it
was left also once its directory is made, since that may be what makes it visible. -/
def Keeps (digest : Digest) (t : FileTree) (records : List RunRecord) : CacheStore → Prop
  | .memory entries => ∀ name, entries.lookup name = records.find? (·.name == name)
  | .directory dir => ∀ name,
      Stands (t.child? dir (entryName digest name)) (lastInEntry digest records name) ∧
      Stands ((t.makeDirs dir).1.child? dir (entryName digest name))
        (lastInEntry digest records name)

/-- A store without records: nothing in memory, no entry files in the directory. -/
def Vacant (digest : Digest) (t : FileTree) : CacheStore → Prop
  | .memory entries => entries = []
  | .directory dir => ∀ name, t.child? dir (entryName digest name) = none ∧
      (t.makeDirs dir).1.child? dir (entryName digest name) = none

/-- Two trees in which the entry files of a store are the same. -/
def SameEntries (digest : Digest) (t t' : FileTree) : CacheStore → Prop
  | .memory _ => True
  | .directory dir => ∀ name,
      t'.child? dir (entryName digest name) = t.child? dir (entryName digest name) ∧
      (t'.makeDirs dir).1.child? dir (entryName digest name) =
        (t.makeDirs dir).1.child? dir (entryName digest name)

/-- A store in which a record can be saved: the directory can be made, the entry written, and its
time read back. -/
def Accepts (digest : Digest) (t : FileTree) (r : RunRecord) : CacheStore → Prop
  | .memory _ => True
  | .directory dir => r.IsShort ∧ ∃ made t', t.makeDirs dir = (made, .ok ()) ∧
      made.write (entryPath digest dir r.name) (Text.utf8 r.text) = .ok t'

variable {t t' : FileTree} {records : List RunRecord} {store : CacheStore}

/-- Making a directory that is there, and has room for an entry, changes nothing. -/
theorem makeDirs_of_fits {dir : Path} {place : List String} {name : String}
    (hdir : t.HasDir dir place) (hfits : dir.Fits (entryName digest name)) :
    t.makeDirs dir = (t, .ok ()) :=
  FileTree.makeDirs_of_hasDir hdir (Path.hasNull_of_fits hfits)
    (Path.short_of_fits hfits (entryName_ne (by decide) digest name))

/-- An empty directory is vacant. -/
theorem vacant_of_empty {dir : Path} {place : List String} {mtime : Int}
    (hdir : t.HasDir dir place) (hget : t.root.get? place = some (.dir mtime []))
    (hmade : t.makeDirs dir = (t, .ok ())) : (CacheStore.directory dir).Vacant digest t := by
  intro name
  have hnone : t.child? dir (entryName digest name) = none := by
    refine Option.eq_none_iff_forall_ne_some.mpr fun n hn => ?_
    obtain ⟨-, hentry⟩ := (FileTree.child?_eq_some_iff_lookup hdir hget
      (entryName_ne_dot digest name) (entryName_ne_dots digest name)).mp hn
    simp at hentry
  rw [hmade]
  exact ⟨hnone, hnone⟩

theorem keeps_of_vacant (h : store.Vacant digest t) : store.Keeps digest t [] := by
  cases store with
  | memory entries =>
    intro name
    rw [show entries = [] from h]
    rfl
  | directory dir => exact h

theorem keeps_of_sameEntries (h : store.Keeps digest t records)
    (hsame : store.SameEntries digest t t') : store.Keeps digest t' records := by
  cases store with
  | memory entries => exact h
  | directory dir =>
    intro name
    obtain ⟨hnow, hmade⟩ := hsame name
    rw [hnow, hmade]
    exact h name

/-- An entry that was written stands, and the others stand as before. -/
theorem stands_write {made : FileTree} {dir : Path} {r : RunRecord} (hshort : r.IsShort)
    (hmade : ∀ name, Stands (made.child? dir (entryName digest name))
      (lastInEntry digest records name))
    (hwrite : made.write (dir.child (entryName digest r.name)) (Text.utf8 r.text) = .ok t')
    (name : String) :
    Stands (t'.child? dir (entryName digest name)) (lastInEntry digest (r :: records) name) := by
  have hdot := entryName_ne_dot digest
  have hdots := entryName_ne_dots digest
  have hfree := (hmade r.name).isFree
  -- Two linters share an entry file if their names have one digest; it holds the later record.
  by_cases hname : entryName digest name = entryName digest r.name
  · obtain ⟨data, hentry, hcontent⟩ :=
      FileTree.child?_write_self (hdot r.name) (hdots r.name) hfree hwrite
    have hlast : lastInEntry digest (r :: records) name = some r := by
      simp [lastInEntry, entryName_eq_iff.mp hname]
    rw [hname, hlast]
    exact ⟨hshort, data, hentry, hcontent⟩
  · have hother := FileTree.child?_write_of_ne (hdot r.name) (hdots r.name) hfree hwrite hname
      (hdot name) (hdots name)
    have hlast : lastInEntry digest (r :: records) name = lastInEntry digest records name := by
      have hne := mt entryName_eq_iff.mpr (Ne.symm hname)
      simp [lastInEntry, hne]
    rw [hother, hlast]
    exact hmade name

/-- After an entry was written its directory is there, and making it changes nothing. -/
theorem makeDirs_write {made : FileTree} {dir : Path} {name : String} {content : List UInt8}
    (hfree : Node.IsFree (made.child? dir (entryName digest name)))
    (hwrite : made.write (dir.child (entryName digest name)) content = .ok t') :
    t'.makeDirs dir = (t', .ok ()) := by
  obtain ⟨hfits, _, _, _, _, -, -, -, hdir, -⟩ := FileTree.write_child
    (entryName_ne_dot digest name) (entryName_ne_dots digest name) hfree hwrite
  exact makeDirs_of_fits hdir hfits

/-- A record can be saved in a directory that is there. -/
theorem accepts_of_hasDir {dir : Path} {place : List String} {r : RunRecord}
    (h : (CacheStore.directory dir).Keeps digest t records) (hdir : t.HasDir dir place)
    (hfits : dir.Fits (entryName digest r.name)) (hshort : r.IsShort) :
    (CacheStore.directory dir).Accepts digest t r := by
  obtain ⟨_, -, hwrite⟩ :=
    FileTree.write_eq_ok_of_isFree hdir hfits (h r.name).1.isFree (Text.utf8 r.text)
  exact ⟨hshort, t, _, makeDirs_of_fits hdir hfits, hwrite⟩

/-- Saving a record keeps a store in agreement with its records. -/
theorem keeps_save (h : store.Keeps digest t records) {r : RunRecord}
    (haccepts : store.Accepts digest t r) :
    (store.save digest t r).1.Keeps digest (store.save digest t r).2 (r :: records) := by
  cases store with
  | memory entries =>
    intro name
    by_cases hname : name = r.name
    · subst hname
      simp
    · rw [Keyed.lookup_put_of_ne _ hname, List.find?_cons_of_neg (by simpa using Ne.symm hname)]
      exact h name
  | directory dir =>
    obtain ⟨hshort, made, t', hmake, hwrite⟩ := haccepts
    have hsaved : writeEntry digest t dir r = t' := by
      simp [writeEntry, hmake, hwrite, Except.toOption]
    -- Making the directory may be what makes its entries visible.
    have hmade : ∀ name, Stands (made.child? dir (entryName digest name))
        (lastInEntry digest records name) := by
      intro name
      have hstands := (h name).2
      rwa [hmake] at hstands
    intro name
    have hstands := stands_write hshort hmade hwrite name
    have hagain := makeDirs_write (hmade r.name).isFree hwrite
    simp only [save, hsaved, hagain]
    exact ⟨hstands, hstands⟩

/-- The last record in an entry file is the last of the name if no other name has its digest. -/
theorem lastInEntry_eq {name : String}
    (hdistinct : ∀ r ∈ records,
      digest (Text.utf8 r.name) = digest (Text.utf8 name) → r.name = name) :
    lastInEntry digest records name = records.find? (·.name == name) := by
  induction records with
  | nil => rfl
  | cons r records ih =>
    obtain ⟨hr, hrecords⟩ := List.forall_mem_cons.mp hdistinct
    have ih := ih hrecords
    unfold lastInEntry at ih ⊢
    by_cases hname : r.name = name
    · simp [hname]
    · simp [hname, mt hr hname, ih]

/-- A store gives back the last record of a name, provided that no other name with records has the
same digest. -/
theorem load_eq_ok_some_iff (h : store.Keeps digest t records) {name : String}
    (hdistinct : ∀ r ∈ records, digest (Text.utf8 r.name) = digest (Text.utf8 name) → r.name = name)
    (r : RunRecord) :
    load digest t name store = .ok (some r) ↔ records.find? (·.name == name) = some r := by
  cases store with
  | memory entries => simp [load, h name]
  | directory dir =>
    have hlast := lastInEntry_eq hdistinct
    rw [load_of_stands (h name).1, hlast]
    exact ⟨And.left, fun hfind => ⟨hfind, by simpa using List.find?_some hfind⟩⟩

end CacheStore

end LinterSuite
