import LinterSuite.Proofs.Cache.Saves
import LinterSuite.Proofs.FileTree.Contents

/-!
# Records after several were saved

What a store gives back under a name depends on that name's entry only. So a record that was saved
is given back, whatever was saved before and after it for other linters, and records that were not
saved are what they were once the directory of the store was made. In whatever order some records
were saved, the store comes to the same contents.

## Main definitions

* `CacheStore.readFound`: what is read of an entry, given what its path leads to
* `CacheStore.Admits`: a store in which records of some linters may be saved
* `CacheStore.prepared`: the tree once something was saved in a store
* `CacheStore.keyOf`: what a store keeps the record of a linter under
* `CacheStore.Takes`: a store in which the record of a linter can be saved and read back

## Main results

* `CacheStore.load_directory`: a directory is read by what the paths of its entries lead to
* `CacheStore.load_saveAll_of_not_mem`: saving records of other linters does no harm
* `CacheStore.load_saveAll_self`: a record that was saved is given back
* `CacheStore.load_saveAll_congr`: what is given back depends on the records of that name
* `CacheStore.load_saveAll_perm`, `CacheStore.alike_saveAll_perm`: the order of saving does not
  matter
-/

namespace LinterSuite.CacheStore

variable {digest : Digest} {t t' made : FileTree} {dir : Path} {place : List String}
  {name : String} {names : List String} {r : RunRecord} {rs rs' : List RunRecord}
  {store : CacheStore}

/-! ### What is read of an entry -/

/-- What is read of an entry, given what its path leads to. -/
def readFound (path : Path) (name : String) :
    Except FileError Node → Except EntryError (Option RunRecord)
  | .ok (.file data) => readEntry name data.content
  | .error .nameTooLong => .error (.path (.nameTooLong path))
  | _ => .ok none

theorem load_directory (digest : Digest) (t : FileTree) (dir : Path) (name : String) :
    load digest t name (.directory dir) =
      readFound (entryPath digest dir name) name (t.stat (entryPath digest dir name)) := by
  simp only [load, FileTree.ask, FileTree.read]
  rcases t.stat (entryPath digest dir name) with e | n
  · cases e <;> rfl
  · cases n <;> rfl

/-- A record that is read was read from a file. -/
theorem readFound_eq_ok_some {path : Path} {found : Except FileError Node}
    (h : readFound path name found = .ok (some r)) :
    ∃ data, found = .ok (.file data) ∧ readEntry name data.content = .ok (some r) := by
  rcases found with e | data | _ | _
  · cases e <;> cases h
  · exact ⟨data, rfl, h⟩
  · cases h
  · cases h

/-- What is read of an entry does not depend on times. -/
theorem load_congr (h : (t'.stat (entryPath digest dir name)).map Node.kind =
      (t.stat (entryPath digest dir name)).map Node.kind) :
    load digest t' name (.directory dir) = load digest t name (.directory dir) := by
  rw [load_directory, load_directory]
  generalize t.stat (entryPath digest dir name) = found,
    t'.stat (entryPath digest dir name) = found' at h ⊢
  rcases found with _ | _ | _ | _ <;> rcases found' with _ | _ | _ | _ <;>
    simp_all [readFound, Except.map, Node.kind]

theorem load_of_alike (h : t.Alike t') (store : CacheStore) (name : String) :
    load digest t' name store = load digest t name store := by
  cases store with
  | memory records => rfl
  | directory dir => exact load_congr (h.stat _)

/-- A record that can be read stays so while no file is written. -/
theorem load_of_grows {dirs files : List String → Prop} (hgrows : t.Grows dirs files t')
    (hfiles : ∀ names, ¬ files names) (h : load digest t name (.directory dir) = .ok (some r)) :
    load digest t' name (.directory dir) = .ok (some r) := by
  rw [load_directory] at h ⊢
  obtain ⟨data, hstat, hread⟩ := readFound_eq_ok_some h
  rw [hgrows.stat_file hfiles hstat]
  exact hread

/-! ### Entries of a directory -/

section

variable (hat : made.IsDirAt dir place) (hdigest : digest.IsPlain)
  (hlinks : ∀ r ∈ rs, ∀ text,
    made.root.get? (place ++ [entryName digest r.name]) ≠ some (.link text))

include hat hdigest hlinks

/-- The entries of other linters are left alone. -/
theorem load_writeAll_of_not_mem
    (hlink : ∀ text, made.root.get? (place ++ [entryName digest name]) ≠ some (.link text))
    (hother : ∀ r ∈ rs, entryName digest r.name ≠ entryName digest name) :
    load digest (writeAll digest made dir rs) name (.directory dir) =
      load digest made name (.directory dir) := by
  have hgrows := grows_writeAll hat hdigest hlinks
  refine load_congr (FileTree.kind_stat_child hat.hasDir (hat.grows hgrows).hasDir
    (isName_entryName hdigest name) hlink ?_)
  refine (hgrows.places _).kind_eq not_false ?_
  rintro ⟨r, hr, -, heq⟩
  exact hother r hr (List.singleton_inj.mp (List.append_cancel_left heq)).symm

/-- What was written in an entry is read from it. -/
theorem load_writeAll_self (hdistinct : rs.Pairwise fun r r' =>
      entryName digest r.name ≠ entryName digest r'.name) (hr : r ∈ rs)
    (hopen : Open digest made dir place r.name) (hshort : r.IsShort) :
    load digest (writeAll digest made dir rs) r.name (.directory dir) = .ok (some r) := by
  have hgrows := grows_writeAll hat hdigest hlinks
  obtain ⟨data, hcontent, hfile⟩ := exists_file_of_mem hat hdigest hlinks hdistinct hr hopen
  rw [← child?_eq_get? (hat.grows hgrows).hasDir hopen.1] at hfile
  rw [load_directory, entryPath_eq, FileTree.stat_of_child?_file (entryName_ne_dot digest r.name)
    (entryName_ne_dots digest r.name) hfile]
  simp only [readFound, hcontent, readEntry_text hshort, if_true]

/-- What is in a place after some records were written depends only on those that belong there. -/
theorem kind_writeAll_congr (hlinks' : ∀ r ∈ rs', ∀ text,
      made.root.get? (place ++ [entryName digest r.name]) ≠ some (.link text))
    (hdistinct : rs.Pairwise fun r r' => entryName digest r.name ≠ entryName digest r'.name)
    (hdistinct' : rs'.Pairwise fun r r' => entryName digest r.name ≠ entryName digest r'.name)
    {place' : List String}
    (hsame : ∀ r : RunRecord, place' = place ++ [entryName digest r.name] → (r ∈ rs ↔ r ∈ rs')) :
    ((writeAll digest made dir rs).root.get? place').map Node.kind =
      ((writeAll digest made dir rs').root.get? place').map Node.kind := by
  -- Either the place is an entry of these records, and holds one of them, or nothing has changed
  -- there.
  by_cases hentry : Entries digest made dir place rs place'
  · obtain ⟨r, hr, hopen, rfl⟩ := hentry
    obtain ⟨data, hcontent, hfile⟩ := exists_file_of_mem hat hdigest hlinks hdistinct hr hopen
    obtain ⟨data', hcontent', hfile'⟩ :=
      exists_file_of_mem hat hdigest hlinks' hdistinct' ((hsame r rfl).mp hr) hopen
    rw [hfile, hfile', Option.map_some, Option.map_some, Node.kind, Node.kind, hcontent, hcontent']
  · have hentry' : ¬ Entries digest made dir place rs' place' := by
      rintro ⟨r, hr, hopen, heq⟩
      exact hentry ⟨r, (hsame r heq).mpr hr, hopen, heq⟩
    have hgrows := grows_writeAll hat hdigest hlinks
    have hgrows' := grows_writeAll hat hdigest hlinks'
    rw [(hgrows.places place').kind_eq not_false hentry,
      (hgrows'.places place').kind_eq not_false hentry']

/-- What is read under a name depends only on the records that are kept there. -/
theorem load_writeAll_congr (hlinks' : ∀ r ∈ rs', ∀ text,
      made.root.get? (place ++ [entryName digest r.name]) ≠ some (.link text))
    (hlink : ∀ text, made.root.get? (place ++ [entryName digest name]) ≠ some (.link text))
    (hdistinct : rs.Pairwise fun r r' => entryName digest r.name ≠ entryName digest r'.name)
    (hdistinct' : rs'.Pairwise fun r r' => entryName digest r.name ≠ entryName digest r'.name)
    (hsame : ∀ r, entryName digest r.name = entryName digest name → (r ∈ rs ↔ r ∈ rs')) :
    load digest (writeAll digest made dir rs') name (.directory dir) =
      load digest (writeAll digest made dir rs) name (.directory dir) := by
  have hgrows := grows_writeAll hat hdigest hlinks
  have hgrows' := grows_writeAll hat hdigest hlinks'
  refine load_congr (FileTree.kind_stat_child (hat.grows hgrows).hasDir (hat.grows hgrows').hasDir
    (isName_entryName hdigest name) (fun text => mt (hgrows.sameLinks _ text).mp (hlink text)) ?_)
  refine (kind_writeAll_congr hat hdigest hlinks hlinks' hdistinct hdistinct' fun r heq => ?_).symm
  exact hsame r (List.singleton_inj.mp (List.append_cancel_left heq)).symm

/-- Entries are the same in whatever order they were written. -/
theorem alike_writeAll_perm (hdistinct : rs.Pairwise fun r r' =>
      entryName digest r.name ≠ entryName digest r'.name) (hperm : rs.Perm rs') :
    (writeAll digest made dir rs).Alike (writeAll digest made dir rs') := by
  have hlinks' : ∀ r ∈ rs', ∀ text,
      made.root.get? (place ++ [entryName digest r.name]) ≠ some (.link text) :=
    fun r hr => hlinks r (hperm.mem_iff.mpr hr)
  have hdistinct' := (hperm.pairwise_iff fun hne => Ne.symm hne).mp hdistinct
  have hgrows := grows_writeAll hat hdigest hlinks
  have hgrows' := grows_writeAll hat hdigest hlinks'
  exact ⟨hgrows'.cwd.trans hgrows.cwd.symm, fun place' =>
    (kind_writeAll_congr hat hdigest hlinks hlinks' hdistinct hdistinct' fun r _ =>
      hperm.mem_iff).symm⟩

end

/-! ### Records in memory -/

section

variable {records : List (String × RunRecord)}

theorem lookup_saved_of_not_mem (hother : ∀ r ∈ rs, r.name ≠ name) :
    (rs.foldr (fun r records => Keyed.put records r.name r) records).lookup name =
      records.lookup name := by
  induction rs with
  | nil => rfl
  | cons r rs ih =>
    obtain ⟨hr, hrs⟩ := List.forall_mem_cons.mp hother
    rw [List.foldr_cons, Keyed.lookup_put_of_ne _ (Ne.symm hr), ih hrs]

theorem lookup_saved_self (hdistinct : rs.Pairwise fun r r' => r.name ≠ r'.name) (hr : r ∈ rs) :
    (rs.foldr (fun r records => Keyed.put records r.name r) records).lookup r.name = some r := by
  induction rs with
  | nil => exact absurd hr List.not_mem_nil
  | cons first rs ih =>
    obtain ⟨hfirst, hrs⟩ := List.pairwise_cons.mp hdistinct
    rw [List.foldr_cons]
    rcases List.mem_cons.mp hr with rfl | hr
    · rw [Keyed.lookup_put_self]
    · rw [Keyed.lookup_put_of_ne _ (Ne.symm (hfirst r hr)), ih hrs hr]

end

/-! ### Stores -/

/-- A store in which records of some linters may be saved. -/
def Admits (digest : Digest) (t : FileTree) (names : List String) : CacheStore → Prop
  | .memory _ => True
  | .directory dir => Lodges digest t dir names

theorem Admits.mono {names' : List String} (h : store.Admits digest t names)
    (hsub : ∀ name ∈ names', name ∈ names) : store.Admits digest t names' := by
  cases store with
  | memory records => trivial
  | directory dir =>
    obtain ⟨formed, dirPlain, digestPlain, unlinked⟩ := h
    exact ⟨formed, dirPlain, digestPlain, fun place hplace name hname =>
      unlinked place hplace name (hsub name hname)⟩

/-- The tree once something was saved in a store: its directory was made. -/
def prepared (t : FileTree) : CacheStore → FileTree
  | .memory _ => t
  | .directory dir => (t.makeDirs dir).1

/-- What a store keeps the record of a linter under. -/
def keyOf (digest : Digest) (name : String) : CacheStore → String
  | .memory _ => name
  | .directory _ => entryName digest name

/-- Records that a store keeps apart. -/
def Distinct (digest : Digest) (store : CacheStore) (rs : List RunRecord) : Prop :=
  rs.Pairwise fun r r' => store.keyOf digest r.name ≠ store.keyOf digest r'.name

/-- Records are saved one after the other. -/
theorem saveAll_append (digest : Digest) (store : CacheStore) (t : FileTree)
    (rs rs' : List RunRecord) :
    store.saveAll digest t (rs ++ rs') =
      (store.saveAll digest t rs').1.saveAll digest (store.saveAll digest t rs').2 rs := by
  induction rs with
  | nil => rfl
  | cons r rs ih => rw [List.cons_append, saveAll, saveAll, ih]

/-- Saving records of other linters does no harm. -/
theorem load_saveAll_of_not_mem (h : store.Admits digest t names)
    (hnames : ∀ r ∈ rs, r.name ∈ names) (hname : name ∈ names) (hne : rs ≠ [])
    (hother : ∀ r ∈ rs, store.keyOf digest r.name ≠ store.keyOf digest name) :
    (store.saveAll digest t rs).1.load digest (store.saveAll digest t rs).2 name =
      store.load digest (store.prepared t) name := by
  cases store with
  | memory records =>
    rw [saveAll_memory]
    exact congrArg Except.ok (lookup_saved_of_not_mem hother)
  | directory dir =>
    have h : Lodges digest t dir names := h
    rw [saveAll_directory h.formed h.dirPlain hne]
    rcases h.cases with hnothing | ⟨place, hat⟩
    · rw [hnothing]
      rfl
    · exact load_writeAll_of_not_mem hat h.digestPlain
        (fun r hr => h.unlinked place hat.hasDir _ (hnames r hr))
        (h.unlinked place hat.hasDir name hname) hother

/-- If making the directory of the store does no harm either, the record is the one from before. -/
theorem load_saveAll_of_others (h : store.Admits digest t names)
    (hnames : ∀ r ∈ rs, r.name ∈ names) (hname : name ∈ names)
    (hprepared : store.load digest (store.prepared t) name = store.load digest t name)
    (hother : ∀ r ∈ rs, store.keyOf digest r.name ≠ store.keyOf digest name) :
    (store.saveAll digest t rs).1.load digest (store.saveAll digest t rs).2 name =
      store.load digest t name := by
  by_cases hne : rs = []
  · rw [hne]
    rfl
  · exact (load_saveAll_of_not_mem h hnames hname hne hother).trans hprepared

/-- A record that was read before the first was saved can be read afterwards. -/
theorem load_prepared (h : store.Admits digest t names)
    (hload : store.load digest t name = .ok (some r)) :
    store.load digest (store.prepared t) name = .ok (some r) := by
  cases store with
  | memory records => exact hload
  | directory dir =>
    have h : Lodges digest t dir names := h
    exact load_of_grows (FileTree.grows_makeDirs h.formed h.dirPlain rfl) (fun _ => not_false) hload

/-- A store in which the record of a linter can be saved and read back: in a directory, its entry
can be written. -/
def Takes (digest : Digest) (t : FileTree) (name : String) : CacheStore → Prop
  | .memory _ => True
  | .directory dir => ∃ place, (t.makeDirs dir).1.IsDirAt dir place ∧
      Open digest (t.makeDirs dir).1 dir place name

/-- A record that was saved is given back. -/
theorem load_saveAll_self (h : store.Admits digest t names) (hnames : ∀ r ∈ rs, r.name ∈ names)
    (hdistinct : store.Distinct digest rs) (hr : r ∈ rs) (htakes : store.Takes digest t r.name)
    (hshort : r.IsShort) :
    (store.saveAll digest t rs).1.load digest (store.saveAll digest t rs).2 r.name =
      .ok (some r) := by
  cases store with
  | memory records =>
    rw [saveAll_memory]
    exact congrArg Except.ok (lookup_saved_self hdistinct hr)
  | directory dir =>
    have h : Lodges digest t dir names := h
    obtain ⟨place, hat, hopen⟩ := htakes
    rw [saveAll_directory h.formed h.dirPlain (List.ne_nil_of_mem hr)]
    exact load_writeAll_self hat h.digestPlain
      (fun r hr => h.unlinked place hat.hasDir _ (hnames r hr)) hdistinct hr hopen hshort

/-- What is given back under a name depends only on the records that are kept there. -/
theorem load_saveAll_congr (h : store.Admits digest t names) (hname : name ∈ names)
    (hprepared : store.load digest (store.prepared t) name = store.load digest t name)
    (hnames : ∀ r ∈ rs, r.name ∈ names) (hdistinct : store.Distinct digest rs)
    (hnames' : ∀ r ∈ rs', r.name ∈ names) (hdistinct' : store.Distinct digest rs')
    (hsame : ∀ r, store.keyOf digest r.name = store.keyOf digest name → (r ∈ rs ↔ r ∈ rs')) :
    (store.saveAll digest t rs').1.load digest (store.saveAll digest t rs').2 name =
      (store.saveAll digest t rs).1.load digest (store.saveAll digest t rs).2 name := by
  -- A record that is kept under this name is among both; if there is none, the store is as before.
  by_cases hkept : ∃ r ∈ rs, store.keyOf digest r.name = store.keyOf digest name
  · obtain ⟨r, hr, hkey⟩ := hkept
    have hr' : r ∈ rs' := (hsame r hkey).mp hr
    cases store with
    | memory records =>
      obtain rfl : r.name = name := hkey
      rw [saveAll_memory, saveAll_memory]
      exact congrArg Except.ok
        ((lookup_saved_self hdistinct' hr').trans (lookup_saved_self hdistinct hr).symm)
    | directory dir =>
      have h : Lodges digest t dir names := h
      rw [saveAll_directory h.formed h.dirPlain (List.ne_nil_of_mem hr),
        saveAll_directory h.formed h.dirPlain (List.ne_nil_of_mem hr')]
      rcases h.cases with hnothing | ⟨place, hat⟩
      · rw [hnothing, hnothing]
      · have hlinks := h.unlinked place hat.hasDir
        exact load_writeAll_congr hat h.digestPlain (fun r hr => hlinks _ (hnames r hr))
          (fun r hr => hlinks _ (hnames' r hr)) (hlinks name hname) hdistinct hdistinct' hsame
  · have hother : ∀ r ∈ rs, store.keyOf digest r.name ≠ store.keyOf digest name :=
      fun r hr hkey => hkept ⟨r, hr, hkey⟩
    have hother' : ∀ r ∈ rs', store.keyOf digest r.name ≠ store.keyOf digest name :=
      fun r hr hkey => hkept ⟨r, (hsame r hkey).mpr hr, hkey⟩
    rw [load_saveAll_of_others h hnames' hname hprepared hother',
      load_saveAll_of_others h hnames hname hprepared hother]

section

variable (h : store.Admits digest t names) (hnames : ∀ r ∈ rs, r.name ∈ names)
  (hdistinct : store.Distinct digest rs) (hperm : rs.Perm rs')

include h hnames hdistinct hperm

/-- In whatever order records were saved, files have the same contents. -/
theorem alike_saveAll_perm :
    (store.saveAll digest t rs).2.Alike (store.saveAll digest t rs').2 := by
  cases store with
  | memory records =>
    rw [saveAll_memory, saveAll_memory]
    exact .refl t
  | directory dir =>
    have h : Lodges digest t dir names := h
    by_cases hne : rs = []
    · subst hne
      obtain rfl := List.nil_perm.mp hperm
      exact .refl t
    have hne' : rs' ≠ [] := fun hnil => hne (List.perm_nil.mp (hnil ▸ hperm))
    rw [saveAll_directory h.formed h.dirPlain hne, saveAll_directory h.formed h.dirPlain hne']
    rcases h.cases with hnothing | ⟨place, hat⟩
    · rw [hnothing, hnothing]
      exact .refl _
    · exact alike_writeAll_perm hat h.digestPlain
        (fun r hr => h.unlinked place hat.hasDir _ (hnames r hr)) hdistinct hperm

/-- In whatever order records were saved, the same are given back. -/
theorem load_saveAll_perm (name : String) :
    (store.saveAll digest t rs').1.load digest (store.saveAll digest t rs').2 name =
      (store.saveAll digest t rs).1.load digest (store.saveAll digest t rs).2 name := by
  have halike := alike_saveAll_perm h hnames hdistinct hperm
  cases store with
  | memory records =>
    rw [saveAll_memory, saveAll_memory]
    refine congrArg Except.ok ?_
    by_cases hmem : ∃ r ∈ rs, r.name = name
    · obtain ⟨r, hr, rfl⟩ := hmem
      have hdistinct' := (hperm.pairwise_iff fun hne => Ne.symm hne).mp hdistinct
      rw [lookup_saved_self hdistinct hr,
        lookup_saved_self hdistinct' (hperm.mem_iff.mp hr)]
    · have hother : ∀ r ∈ rs, r.name ≠ name := fun r hr heq => hmem ⟨r, hr, heq⟩
      rw [lookup_saved_of_not_mem hother,
        lookup_saved_of_not_mem fun r hr => hother r (hperm.mem_iff.mpr hr)]
  | directory dir =>
    have h : Lodges digest t dir names := h
    -- A directory remembers nothing besides its files.
    have hstore : ∀ rs, ((CacheStore.directory dir).saveAll digest t rs).1 = .directory dir := by
      intro rs
      by_cases hne : rs = []
      · rw [hne]
        rfl
      · rw [saveAll_directory h.formed h.dirPlain hne]
    rw [hstore, hstore]
    exact load_of_alike halike _ name

end

end LinterSuite.CacheStore
