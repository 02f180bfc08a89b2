import LinterSuite.Proofs.Cache.Loads
import LinterSuite.Proofs.FileTree.Absence
import LinterSuite.Proofs.Run.Samples
import Mathlib.Data.Set.Function

/-!
# Replies of a store

A store is saved to and loaded from in any order. What it replies is compared with the records that
were saved so far: under a name it should give the last of them. Memory always does. So does a
directory that was not there at the start, as long as every record can be written, and no two names
have one digest: it cannot be told from memory. Whatever is in a directory, it never gives a record
of another name.

## Main definitions

* `StoreCall`: a record that is saved, or a name under which one is loaded
* `StoreCall.lastSaved`: what the loads among some calls should give
* `CacheStore.replies`: what they give
* `CacheStore.Writes`: calls of which every save goes through
* `CacheStore.Serves`: a store that agrees with some records, and can be asked for others
* `StoreCall.Unhindered`: calls of a directory that was not there, in which nothing goes wrong

## Main results

* `CacheStore.load_of_serves`: a store replies as it should
* `CacheStore.serves_save`: it still does after a record was saved
* `CacheStore.replies_of_serves`: it does so in all calls
* `CacheStore.directory_refines_memory`: a directory replies as memory does
-/

namespace LinterSuite

/-- A call of a store. -/
inductive StoreCall where
  | save (r : RunRecord)
  | load (name : String)
  deriving Repr

namespace StoreCall

/-- The name that a call is about. -/
def name : StoreCall → String
  | save r => r.name
  | load name => name

/-- What the loads among some calls should give, after some records were saved, the last first. -/
def lastSaved : List RunRecord → List StoreCall → List (Option RunRecord)
  | _, [] => []
  | saved, save r :: calls => lastSaved (r :: saved) calls
  | saved, load name :: calls => saved.find? (·.name == name) :: lastSaved saved calls

end StoreCall

namespace CacheStore

variable {digest : Digest} {t : FileTree} {dir : Path} {name : String} {r : RunRecord}
  {saved : List RunRecord} {store : CacheStore} {calls : List StoreCall}

/-- What the loads among some calls give. -/
def replies (digest : Digest) : CacheStore → FileTree → List StoreCall →
    List (Except EntryError (Option RunRecord))
  | _, _, [] => []
  | store, t, .save r :: calls =>
    replies digest (store.save digest t r).1 (store.save digest t r).2 calls
  | store, t, .load name :: calls => store.load digest t name :: replies digest store t calls

/-- Calls of which every save goes through. -/
def Writes (digest : Digest) : CacheStore → FileTree → List StoreCall → Prop
  | _, _, [] => True
  | store, t, .save r :: calls =>
    store.Accepts digest t r ∧
      Writes digest (store.save digest t r).1 (store.save digest t r).2 calls
  | store, t, .load _ :: calls => Writes digest store t calls

/-- A store that can be asked for the record of a linter. Only a directory may be too deep for
that. -/
def Finds (digest : Digest) (name : String) : CacheStore → Prop
  | .memory _ => True
  | .directory dir => dir.Fits (entryName digest name)

/-- A store that agrees with the records saved in it, the last first. If it is a directory, that is
there, or nothing is in its place. -/
def Serves (digest : Digest) (t : FileTree) (saved : List RunRecord) (store : CacheStore) : Prop :=
  store.Keeps digest t saved ∧
    match store with
    | .memory _ => True
    | .directory dir => t.stat dir = .error .noEntry ∨ ∃ place, t.HasDir dir place

/-! ### Loading -/

/-- No record of another name is taken from an entry. -/
theorem name_of_readEntry {bytes : List UInt8} (h : readEntry name bytes = .ok (some r)) :
    r.name = name := by
  unfold readEntry at h
  split at h
  · exact nomatch h
  split at h
  · exact nomatch Except.ok.inj h
  · exact nomatch h
  · exact nomatch h
  · obtain ⟨-, hname⟩ := Option.filter_eq_some_iff.mp (Except.ok.inj h)
    exact beq_iff_eq.mp hname

/-- Whatever is in a directory, no record of another name is given. -/
theorem name_of_load (h : load digest t name (.directory dir) = .ok (some r)) : r.name = name := by
  rw [load_directory] at h
  obtain ⟨_, -, hread⟩ := readFound_eq_ok_some h
  exact name_of_readEntry hread

/-- Where there is no entry, none is found. -/
theorem load_of_child?_none (hfits : dir.Fits (entryName digest name))
    (hthere : t.stat dir = .error .noEntry ∨ ∃ place, t.HasDir dir place)
    (hentry : t.child? dir (entryName digest name) = none) :
    load digest t name (.directory dir) = .ok none := by
  have hstat : t.stat (dir.child (entryName digest name)) = .error .noEntry := by
    -- Without the directory nothing is below it; with it, the entry is looked up there.
    rcases hthere with habsent | ⟨place, hdir⟩
    · exact FileTree.stat_child_of_noEntry habsent hfits
    · obtain ⟨mtime, es, hget⟩ := hdir.exists_dir
      rw [child?_eq_get? hdir hfits] at hentry
      have hlookup : es.lookup (entryName digest name) = none := by
        rwa [← Node.get?_concat hget]
      have hplace : t.locate true (dir.child (entryName digest name)) = _ :=
        FileTree.locate_child hdir hget hfits (by simp [hlookup])
      rw [FileTree.stat, FileTree.lookup, hplace]
      simp only [bind, Except.bind, hentry]
  rw [load_directory, entryPath_eq, hstat]
  rfl

/-- A store replies as it should. -/
theorem load_of_serves (h : store.Serves digest t saved) (hfinds : store.Finds digest name)
    (hdistinct : ∀ r ∈ saved, store.keyOf digest r.name = store.keyOf digest name → r.name = name) :
    store.load digest t name = .ok (saved.find? (·.name == name)) := by
  obtain ⟨hkeeps, hthere⟩ := h
  cases store with
  | memory entries => exact congrArg Except.ok (hkeeps name)
  | directory dir =>
    -- An entry holds the last record of any name with this digest, which here is one name.
    have hdistinct : ∀ r ∈ saved, digest (Text.utf8 r.name) = digest (Text.utf8 name) →
        r.name = name := fun r hr heq => hdistinct r hr (entryName_eq_iff.mpr heq)
    cases hfind : saved.find? (·.name == name) with
    | some r => exact (load_eq_ok_some_iff hkeeps hdistinct r).mpr hfind
    | none =>
      have hstands := (hkeeps name).1
      rw [lastInEntry_eq hdistinct, hfind] at hstands
      exact load_of_child?_none hfinds hthere hstands

/-! ### Saving -/

/-- After a record was saved in a directory, this is there, and nothing is made when it is made
again. -/
theorem hasDir_save (h : (directory dir).Keeps digest t saved)
    (haccepts : (directory dir).Accepts digest t r) :
    (∃ place, ((directory dir).save digest t r).2.HasDir dir place) ∧
      ((directory dir).save digest t r).2.makeDirs dir =
        (((directory dir).save digest t r).2, .ok ()) := by
  obtain ⟨-, made, t', hmake, hwrite⟩ := haccepts
  have hsaved : writeEntry digest t dir r = t' := by
    simp [writeEntry, hmake, hwrite, Except.toOption]
  have hstands := (h r.name).2
  rw [hmake] at hstands
  obtain ⟨-, place, -, -, -, -, -, -, hdir, -⟩ := FileTree.write_child
    (entryName_ne_dot digest r.name) (entryName_ne_dots digest r.name) hstands.isFree hwrite
  simp only [save, hsaved]
  exact ⟨⟨place, hdir⟩, makeDirs_write hstands.isFree hwrite⟩

/-- A store that serves still does after a record was saved. -/
theorem serves_save (h : store.Serves digest t saved) (haccepts : store.Accepts digest t r) :
    (store.save digest t r).1.Serves digest (store.save digest t r).2 (r :: saved) := by
  refine ⟨keeps_save h.1 haccepts, ?_⟩
  cases store with
  | memory entries => trivial
  | directory dir => exact .inr (hasDir_save h.1 haccepts).1

/-- A record can be saved in a directory that can be made. -/
theorem accepts_of_makeDirs {made : FileTree} {place : List String}
    (h : (directory dir).Keeps digest t saved) (hmake : t.makeDirs dir = (made, .ok ()))
    (hdir : made.HasDir dir place) (hfits : dir.Fits (entryName digest r.name))
    (hshort : r.IsShort) : (directory dir).Accepts digest t r := by
  have hstands := (h r.name).2
  rw [hmake] at hstands
  obtain ⟨_, -, hwrite⟩ :=
    FileTree.write_eq_ok_of_isFree hdir hfits hstands.isFree (Text.utf8 r.text)
  exact ⟨hshort, made, _, hmake, hwrite⟩

/-- If a directory can be made, every save goes through whose entry has a name that is not too
long. -/
theorem writes_of_makeDirs (h : (directory dir).Keeps digest t saved)
    (hmake : ∃ made place, t.makeDirs dir = (made, .ok ()) ∧ made.HasDir dir place)
    (hcalls : ∀ r, .save r ∈ calls → dir.Fits (entryName digest r.name) ∧ r.IsShort) :
    (directory dir).Writes digest t calls := by
  induction calls generalizing t saved with
  | nil => trivial
  | cons call calls ih =>
    have hrest := fun r hr => hcalls r (List.mem_cons_of_mem _ hr)
    cases call with
    | load name => exact ih h hmake hrest
    | save r =>
      obtain ⟨made, place, hmake, hdir⟩ := hmake
      obtain ⟨hfits, hshort⟩ := hcalls r List.mem_cons_self
      have haccepts := accepts_of_makeDirs h hmake hdir hfits hshort
      -- The directory is there now, so the hypothesis holds again with itself in the place of what
      -- is made.
      obtain ⟨⟨place', hdir'⟩, hagain⟩ := hasDir_save h haccepts
      exact ⟨haccepts, ih (keeps_save h haccepts) ⟨_, place', hagain, hdir'⟩ hrest⟩

/-! ### Calls -/

/-- A store replies as it should to all calls. -/
theorem replies_of_serves (h : store.Serves digest t saved) (hwrites : store.Writes digest t calls)
    (hfinds : ∀ name, .load name ∈ calls → store.Finds digest name)
    (hdistinct : Set.InjOn (store.keyOf digest)
      {name | name ∈ saved.map (·.name) ∨ name ∈ calls.map StoreCall.name}) :
    store.replies digest t calls = (StoreCall.lastSaved saved calls).map .ok := by
  induction calls generalizing store t saved with
  | nil => rfl
  | cons call calls ih =>
    cases call with
    | save r =>
      obtain ⟨haccepts, hwrites⟩ := hwrites
      -- Saving changes neither what names are kept under nor what can be looked for.
      have hkey : (store.save digest t r).1.keyOf digest = store.keyOf digest := by
        cases store <;> rfl
      refine ih (serves_save h haccepts) hwrites (fun name hname => ?_) (hkey ▸ hdistinct.mono ?_)
      · have hbefore := hfinds name (List.mem_cons_of_mem _ hname)
        cases store <;> exact hbefore
      · intro name
        simp only [List.map_cons, List.mem_cons, StoreCall.name, Set.mem_ofPred_eq]
        tauto
    | load name =>
      have hload := load_of_serves h (hfinds name List.mem_cons_self) fun r hr heq =>
        hdistinct (.inl (List.mem_map_of_mem hr)) (.inr List.mem_cons_self) heq
      have hrest := ih h hwrites (fun name hname => hfinds name (List.mem_cons_of_mem _ hname))
        (hdistinct.mono (Set.union_subset_union_right _ fun name => List.mem_cons_of_mem _))
      rw [replies, hload, hrest]
      rfl

theorem writes_memory (digest : Digest) (entries : List (String × RunRecord)) (t : FileTree)
    (calls : List StoreCall) : (memory entries).Writes digest t calls := by
  induction calls generalizing entries t with
  | nil => trivial
  | cons call calls ih =>
    cases call with
    | save r => exact ⟨trivial, ih ..⟩
    | load name => exact ih ..

/-- Memory replies as it should, whatever the digest. -/
theorem replies_memory (digest : Digest) (t : FileTree) (calls : List StoreCall) :
    (memory []).replies digest t calls = (StoreCall.lastSaved [] calls).map .ok :=
  replies_of_serves ⟨fun _ => rfl, trivial⟩ (writes_memory digest [] t calls) (fun _ _ => trivial)
    fun _ _ _ _ => id

end CacheStore

/-- Calls of a directory that was not there, in which nothing goes wrong: every record can be
written, every entry can be looked for, and no two names have one digest. -/
structure StoreCall.Unhindered (digest : Digest) (t : FileTree) (dir : Path)
    (calls : List StoreCall) : Prop where
  formed : t.WellFormed
  plain : dir.IsPlain
  lacks : t.Lacks dir
  writes : (CacheStore.directory dir).Writes digest t calls
  finds : ∀ name, .load name ∈ calls → dir.Fits (CacheStore.entryName digest name)
  distinct : Set.InjOn (fun name => digest (Text.utf8 name))
    {name | name ∈ calls.map StoreCall.name}

namespace CacheStore

variable {digest : Digest} {t : FileTree} {dir : Path}

/-- A directory that is not there serves, with no record saved. -/
theorem serves_of_lacks (hformed : t.WellFormed) (hplain : dir.IsPlain) (h : t.Lacks dir) :
    (directory dir).Serves digest t [] := by
  refine ⟨keeps_of_vacant fun name => ?_, .inl h.absent⟩
  have hne : entryName digest name ≠ "" := entryName_ne (by decide) digest name
  have hdot := entryName_ne_dot digest name
  have hdots := entryName_ne_dots digest name
  exact ⟨h.child?_eq_none hne hdot hdots, h.child?_makeDirs hne hdot hdots hformed hplain⟩

/-- A directory that was not there replies as memory does, provided that nothing goes wrong, and
both give the last record that was saved under a name. Whatever goes wrong, the directory gives no
record of another name. -/
theorem directory_refines_memory (digest : Digest) (t : FileTree) (dir : Path)
    (calls : List StoreCall) :
    (StoreCall.Unhindered digest t dir calls →
      (directory dir).replies digest t calls = (memory []).replies digest t calls ∧
      (directory dir).replies digest t calls = (StoreCall.lastSaved [] calls).map .ok) ∧
    ∀ name r, load digest t name (.directory dir) = .ok (some r) → r.name = name := by
  refine ⟨fun h => ?_, fun name r => name_of_load⟩
  have hdistinct : Set.InjOn ((directory dir).keyOf digest)
      {name | name ∈ ([] : List RunRecord).map (·.name) ∨ name ∈ calls.map StoreCall.name} := by
    simp only [List.map_nil, List.not_mem_nil, false_or]
    exact fun _ hname _ hname' heq => h.distinct hname hname' (entryName_eq_iff.mp heq)
  have hdirectory : (directory dir).replies digest t calls =
      (StoreCall.lastSaved [] calls).map .ok :=
    replies_of_serves (serves_of_lacks h.formed h.plain h.lacks) h.writes h.finds hdistinct
  exact ⟨hdirectory.trans (replies_memory digest t calls).symm, hdirectory⟩

/-- Records of two linters are saved in a directory that was not there, and loaded in between. -/
theorem directory_refines_memory_two_linters :
    ∃ (t : FileTree) (dir : Path) (calls : List StoreCall) (first second last : RunRecord),
      t.isDir dir = false ∧ StoreCall.Unhindered Sample.digest t dir calls ∧
      (directory dir).replies Sample.digest t calls =
        [.ok none, .ok (some first), .ok (some second), .ok (some last)] := by
  let cache : Path := ⟨.relative, ["c"]⟩
  let first : RunRecord := ⟨"a", "f", "d", -5, none, true⟩
  let second : RunRecord := ⟨"é😀", "", "\"", 1000000000000000000000000000000, some "d", false⟩
  let last : RunRecord := ⟨"a", "f", "e", 7, some "", false⟩
  let calls : List StoreCall := [.load "a", .save first, .load "a", .save second,
    .load "é😀", .save last, .load "a"]
  have hnone : Sample.tree.isDir cache = false := by cbv
  have hformed : Sample.tree.WellFormed := by
    refine ⟨.dir (by decide) ?_ ?_, ⟨_, _, rfl⟩⟩
    · simp only [List.forall_mem_singleton]
      constructor <;> decide
    · simp only [List.forall_mem_singleton]
      exact .file _
  have hplain : cache.IsPlain := by
    intro part hpart
    obtain rfl := List.mem_singleton.mp hpart
    decide
  have hlacks : Sample.tree.Lacks cache := by
    refine ⟨by cbv, ⟨.relative, []⟩, ["c"], by cbv, rfl, ?_⟩
    simp only [List.forall_mem_singleton]
    decide
  have hfits : ∀ name ∈ ["a", "é😀"], cache.Fits (entryName Sample.digest name) := by
    simp only [List.forall_mem_cons]
    refine ⟨?_, ?_, List.forall_mem_nil _⟩ <;> constructor <;> decide
  have hmake : ∃ made place, Sample.tree.makeDirs cache = (made, .ok ()) ∧
      made.HasDir cache place := by
    refine ⟨{ Sample.tree with root := Sample.tree.root.insert 2 ["c"] (.dir 2 []) }, ["c"],
      by cbv, ?_⟩
    exact .down rfl (by decide) (by decide) (by decide) rfl (.here rfl)
  have hwrites : (directory cache).Writes Sample.digest Sample.tree calls := by
    refine writes_of_makeDirs (serves_of_lacks hformed hplain hlacks).1 hmake fun r hr => ?_
    simp only [calls, List.mem_cons, StoreCall.save.injEq, reduceCtorEq, List.not_mem_nil, false_or,
      or_false] at hr
    rcases hr with rfl | rfl | rfl
    · exact ⟨hfits "a" (by simp), by unfold RunRecord.IsShort; decide⟩
    · exact ⟨hfits "é😀" (by simp), by unfold RunRecord.IsShort; decide⟩
    · exact ⟨hfits "a" (by simp), by unfold RunRecord.IsShort; decide⟩
  have hunhindered : StoreCall.Unhindered Sample.digest Sample.tree cache calls := by
    have hnames : ∀ name ∈ calls.map StoreCall.name, name = "a" ∨ name = "é😀" := by
      intro name hname
      simp only [calls, List.map_cons, List.map_nil, StoreCall.name, first, second, last,
        List.mem_cons, List.not_mem_nil, or_false] at hname
      tauto
    refine ⟨hformed, hplain, hlacks, hwrites, fun name hname => hfits name ?_, ?_⟩
    · simpa using hnames name (List.mem_map_of_mem (f := StoreCall.name) hname)
    · intro name hname name' hname' heq
      rcases hnames name hname with rfl | rfl <;> rcases hnames name' hname' with rfl | rfl
      · rfl
      · exact absurd heq (by decide)
      · exact absurd heq (by decide)
      · rfl
  obtain ⟨hreplies, -⟩ := directory_refines_memory Sample.digest Sample.tree cache calls
  exact ⟨Sample.tree, cache, calls, first, second, last, hnone, hunhindered,
    (hreplies hunhindered).2.trans (by decide)⟩

end CacheStore

end LinterSuite
