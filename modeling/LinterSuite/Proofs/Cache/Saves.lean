import LinterSuite.Proofs.Cache.Entry
import LinterSuite.Proofs.FileTree.MakeDirs

/-!
# Saving several records

The first record that is saved in a directory makes the directory; after that every record is
written into its entry, as far as that is possible. So the tree only grows, in the place of the
directory and in those of the entries, and in the end every entry holds the record that was saved in
it, in whatever order the records of different linters came.

## Main definitions

* `CacheStore.saveAll`: a store and a tree after some records were saved
* `CacheStore.Open`: an entry that can be written
* `CacheStore.Lodges`: a directory in which entries of some linters may be written

## Main results

* `CacheStore.exists_file_of_mem`: in the end every entry that can be written holds its record
* `CacheStore.saveAll_directory`: records are saved by making the directory once and writing them
* `CacheStore.grows_saveAll`: what a tree grows by when records are saved
-/

namespace LinterSuite

/-- A digest whose values can be part of a name. -/
def Digest.IsPlain (digest : Digest) : Prop :=
  ∀ bytes, '/' ∉ (digest bytes).toList ∧ '\x00' ∉ (digest bytes).toList

namespace CacheStore

variable {digest : Digest} {t v made : FileTree} {dir : Path} {place : List String}
  {r : RunRecord} {rs : List RunRecord}

/-- A store and a tree after some records were saved, the last first. -/
def saveAll (digest : Digest) (store : CacheStore) (t : FileTree) :
    List RunRecord → CacheStore × FileTree
  | [] => (store, t)
  | r :: rs => (saveAll digest store t rs).1.save digest (saveAll digest store t rs).2 r

/-! ### One entry -/

theorem isName_entryName (hdigest : digest.IsPlain) (name : String) :
    Node.IsName (entryName digest name) := by
  obtain ⟨hseparator, hnull⟩ := hdigest (Text.utf8 name)
  refine ⟨entryName_ne (by decide) digest name, entryName_ne_dot digest name,
    entryName_ne_dots digest name, ?_, ?_⟩ <;> simp [entryName, hseparator, hnull]

/-- An entry that can be written, in a directory at a place: its path is not too long, and there is
nothing or a file. -/
def Open (digest : Digest) (t : FileTree) (dir : Path) (place : List String) (name : String) :
    Prop :=
  dir.Fits (entryName digest name) ∧
    Node.IsFree (t.root.get? (place ++ [entryName digest name]))

/-- What a directory has under a name that fits is what is in that place. -/
theorem child?_eq_get? {name : String} (hdir : t.HasDir dir place) (hfits : dir.Fits name) :
    t.child? dir name = t.root.get? (place ++ [name]) := by
  obtain ⟨mtime, es, hget⟩ := hdir.exists_dir
  refine Option.ext fun n => ?_
  rw [FileTree.child?_eq_some_iff_lookup hdir hget hfits.ne_dot hfits.ne_dots,
    Node.get?_concat hget]
  exact and_iff_right hfits

/-- Only the entry changes when it is written. -/
theorem writeEntry_of_open (hat : v.IsDirAt dir place) (hdigest : digest.IsPlain)
    (hopen : Open digest v dir place r.name) :
    v.Grows (fun _ => False) (· = place ++ [entryName digest r.name])
        (writeEntry digest v dir r) ∧
      ∃ data : FileData, data.content = Text.utf8 r.text ∧
        (writeEntry digest v dir r).root.get? (place ++ [entryName digest r.name]) =
          some (.file data) := by
  obtain ⟨hfits, hfree⟩ := hopen
  obtain ⟨mtime, es, hget⟩ := hat.hasDir.exists_dir
  have hchild : Node.IsFree (v.child? dir (entryName digest r.name)) := by
    rwa [child?_eq_get? hat.hasDir hfits]
  obtain ⟨data, hcontent, hwrite⟩ :=
    FileTree.write_eq_ok_of_isFree hat.hasDir hfits hchild (Text.utf8 r.text)
  have hwritten : writeEntry digest v dir r =
      { v with
        root := v.root.insert v.clock (place ++ [entryName digest r.name]) (.file data)
        clock := v.clock + 1 } := by
    rw [writeEntry, hat.makeDirs]
    simp only [entryPath_eq, hwrite, Except.toOption, Option.getD_some]
  have hlookup : Node.IsFree (es.lookup (entryName digest r.name)) := by
    rwa [← Node.get?_concat hget]
  rw [hwritten]
  refine ⟨⟨rfl, fun hnamed => hnamed.insert hget (isName_entryName hdigest r.name) (.file data) _,
    fun names => ?_⟩, data, hcontent, ?_⟩
  · have hleaf : ∀ first rest, (Node.file data).get? (first :: rest) = none := fun _ _ => rfl
    rcases Node.becomes_insert hget hlookup hleaf v.clock names with ⟨rfl, hnew⟩ | ⟨-, hbecomes⟩
    · simp only [hnew]
      exact .file trivial hfree data
    · exact hbecomes.mono id False.elim
  · rw [Node.get?_concat (Node.get?_insert hget ..), Keyed.lookup_put_self]

/-- An entry that cannot be written is left alone, with everything else. -/
theorem writeEntry_of_not_open (hat : v.IsDirAt dir place)
    (hlink : ∀ text, v.root.get? (place ++ [entryName digest r.name]) ≠ some (.link text))
    (hopen : ¬ Open digest v dir place r.name) : writeEntry digest v dir r = v := by
  rw [writeEntry, hat.makeDirs]
  simp only [entryPath_eq]
  obtain ⟨mtime, es, hget⟩ := hat.hasDir.exists_dir
  cases hwrite : v.write (dir.child (entryName digest r.name)) (Text.utf8 r.text) with
  | error e => rfl
  | ok t' =>
    obtain ⟨there, hlocate, hwrite⟩ := Except.bind_eq_ok_iff.mp hwrite
    obtain ⟨hfits, -⟩ := FileTree.hasDir_of_locate_child (entryName_ne_dot digest r.name)
      (entryName_ne_dots digest r.name) hlocate
    have hentry : ∀ text, es.lookup (entryName digest r.name) ≠ some (.link text) := by
      intro text
      rw [← Node.get?_concat hget]
      exact hlink text
    have hplace : v.locate true (dir.child (entryName digest r.name)) = _ :=
      FileTree.locate_child hat.hasDir hget hfits fun _ => hentry
    obtain rfl := Except.ok.inj (hplace.symm.trans hlocate)
    -- It fits, and it is no link, so there must be a directory.
    cases hnode : v.root.get? (place ++ [entryName digest r.name]) with
    | none => exact absurd ⟨hfits, .inl hnode⟩ hopen
    | some n =>
      cases n with
      | file data => exact absurd ⟨hfits, .inr ⟨data, hnode⟩⟩ hopen
      | link text => exact absurd hnode (hlink text)
      | dir => simp [hget, hnode] at hwrite

/-! ### Several entries -/

/-- The tree after some records were written in a directory, the last first. -/
def writeAll (digest : Digest) (t : FileTree) (dir : Path) (rs : List RunRecord) : FileTree :=
  rs.foldr (fun r t => writeEntry digest t dir r) t

theorem writeAll_cons (digest : Digest) (t : FileTree) (dir : Path) (r : RunRecord)
    (rs : List RunRecord) :
    writeAll digest t dir (r :: rs) = writeEntry digest (writeAll digest t dir rs) dir r := rfl

/-- The places of the entries of some records that can be written. -/
def Entries (digest : Digest) (t : FileTree) (dir : Path) (place : List String)
    (rs : List RunRecord) (names : List String) : Prop :=
  ∃ r ∈ rs, Open digest t dir place r.name ∧ names = place ++ [entryName digest r.name]

/-- An entry can be written in a tree that grew by files if it could be written before. -/
theorem open_iff_of_grows {written : List String → Prop}
    (hgrows : made.Grows (fun _ => False) written v) (name : String) :
    Open digest v dir place name ↔ Open digest made dir place name :=
  and_congr_right fun _ => (hgrows.places _).isFree_iff not_false

section

variable (hat : made.IsDirAt dir place) (hdigest : digest.IsPlain)
  (hlinks : ∀ r ∈ rs, ∀ text,
    made.root.get? (place ++ [entryName digest r.name]) ≠ some (.link text))

include hat hdigest hlinks

/-- Only those entries change that can be written. -/
theorem grows_writeAll :
    made.Grows (fun _ => False) (Entries digest made dir place rs)
      (writeAll digest made dir rs) := by
  induction rs with
  | nil => exact .refl made
  | cons r rs ih =>
    obtain ⟨hlink, hlinks⟩ := List.forall_mem_cons.mp hlinks
    have hgrows : made.Grows (fun _ => False) (Entries digest made dir place (r :: rs))
        (writeAll digest made dir rs) :=
      (ih hlinks).mono (fun _ => id) fun names ⟨r', hr', h⟩ =>
        ⟨r', List.mem_cons_of_mem _ hr', h⟩
    by_cases hopen : Open digest made dir place r.name
    · have hstep := (writeEntry_of_open (hat.grows hgrows) hdigest
        ((open_iff_of_grows hgrows r.name).mpr hopen)).1
      exact hgrows.trans (hstep.mono (fun _ => id) fun names hnames =>
        ⟨r, List.mem_cons_self, hopen, hnames⟩)
    · have hstep := writeEntry_of_not_open (hat.grows hgrows)
        (fun text => mt (hgrows.sameLinks _ text).mp (hlink text))
        (mt (open_iff_of_grows hgrows r.name).mp hopen)
      rwa [writeAll_cons, hstep]

/-- In the end every entry that can be written holds its record, if there are no two for one
entry. -/
theorem exists_file_of_mem (hdistinct : rs.Pairwise fun r r' =>
      entryName digest r.name ≠ entryName digest r'.name) (hr : r ∈ rs)
    (hopen : Open digest made dir place r.name) :
    ∃ data : FileData, data.content = Text.utf8 r.text ∧
      (writeAll digest made dir rs).root.get? (place ++ [entryName digest r.name]) =
        some (.file data) := by
  induction rs with
  | nil => exact absurd hr List.not_mem_nil
  | cons r' rs ih =>
    obtain ⟨hlink, hlinks⟩ := List.forall_mem_cons.mp hlinks
    obtain ⟨hother, hdistinct⟩ := List.pairwise_cons.mp hdistinct
    have hgrows := grows_writeAll hat hdigest hlinks
    have hat' := hat.grows hgrows
    rcases List.mem_cons.mp hr with rfl | hr
    · exact (writeEntry_of_open hat' hdigest ((open_iff_of_grows hgrows r.name).mpr hopen)).2
    · obtain ⟨data, hcontent, hfile⟩ := ih hlinks hdistinct hr
      refine ⟨data, hcontent, ?_⟩
      rw [writeAll_cons]
      by_cases hopen' : Open digest made dir place r'.name
      · -- The last record goes into another entry.
        have hstep := (writeEntry_of_open hat' hdigest
          ((open_iff_of_grows hgrows r'.name).mpr hopen')).1
        refine ((hstep.places _).file_iff ?_ data).mpr hfile
        intro heq
        exact hother r hr (List.singleton_inj.mp (List.append_cancel_left heq)).symm
      · rw [writeEntry_of_not_open hat' (fun text => mt (hgrows.sameLinks _ text).mp (hlink text))
          (mt (open_iff_of_grows hgrows r'.name).mp hopen')]
        exact hfile

end

/-! ### Saving -/

theorem saveAll_memory (records : List (String × RunRecord)) :
    saveAll digest (.memory records) t rs =
      (.memory (rs.foldr (fun r records => Keyed.put records r.name r) records), t) := by
  induction rs with
  | nil => rfl
  | cons r rs ih => rw [saveAll, ih, save, List.foldr_cons]

/-- A directory that was made is there when the next record is written. -/
theorem writeEntry_made (hformed : t.WellFormed) (hplain : dir.IsPlain) (r : RunRecord) :
    writeEntry digest (t.makeDirs dir).1 dir r = writeEntry digest t dir r := by
  rcases hmake : t.makeDirs dir with ⟨made, result⟩
  obtain ⟨result', hagain, hok⟩ := FileTree.makeDirs_again hformed hplain hmake
  unfold writeEntry
  rw [hmake, hagain]
  cases result with
  | error e =>
    cases result' with
    | error e' => rfl
    | ok _ => exact nomatch hok.mp rfl
  | ok _ =>
    obtain rfl := hok.mpr rfl
    rfl

/-- Records are saved in a directory by making it once and writing them. -/
theorem saveAll_directory (hformed : t.WellFormed) (hplain : dir.IsPlain) (hne : rs ≠ []) :
    saveAll digest (.directory dir) t rs =
      (.directory dir, writeAll digest (t.makeDirs dir).1 dir rs) := by
  induction rs with
  | nil => exact absurd rfl hne
  | cons r rs ih =>
    cases rs with
    | nil =>
      simp only [saveAll, save, writeAll, List.foldr_cons, List.foldr_nil]
      rw [writeEntry_made hformed hplain]
    | cons r' rs =>
      rw [saveAll, ih (by simp), save]
      rfl

/-- Nothing is written in a directory that cannot be made. -/
theorem writeAll_of_error {e : FileError} (h : made.makeDirs dir = (made, .error e))
    (rs : List RunRecord) : writeAll digest made dir rs = made := by
  induction rs with
  | nil => rfl
  | cons r rs ih => rw [writeAll_cons, ih, writeEntry, h]

/-- A directory in which the entries of some linters may be written: none of them is a link. -/
structure Lodges (digest : Digest) (t : FileTree) (dir : Path) (names : List String) : Prop where
  formed : t.WellFormed
  dirPlain : dir.IsPlain
  digestPlain : digest.IsPlain
  unlinked : ∀ place, (t.makeDirs dir).1.HasDir dir place → ∀ name ∈ names, ∀ text,
    (t.makeDirs dir).1.root.get? (place ++ [entryName digest name]) ≠ some (.link text)

/-- Where a tree may grow by the entries of some linters. -/
def EntryPlaces (digest : Digest) (t : FileTree) (dir : Path) (names : List String)
    (place : List String) : Prop :=
  ∃ parent, (t.makeDirs dir).1.HasDir dir parent ∧ ∃ name ∈ names,
    place = parent ++ [entryName digest name]

/-- Where a tree may grow by a directory and those above it. -/
def MadePlaces (t : FileTree) (dir : Path) (place : List String) : Prop :=
  t.root.get? place = none ∧ ((t.makeDirs dir).1.root.get? place).isSome

/-- Either the directory cannot be made, and no record is written, or it is there, and records are
written into their entries. -/
theorem Lodges.cases {names : List String} (h : Lodges digest t dir names) :
    (∀ rs, writeAll digest (t.makeDirs dir).1 dir rs = (t.makeDirs dir).1) ∨
      ∃ place, (t.makeDirs dir).1.IsDirAt dir place := by
  rcases hmake : t.makeDirs dir with ⟨made, e | _⟩
  · obtain ⟨e', hagain⟩ := FileTree.makeDirs_again_of_error h.formed h.dirPlain hmake
    exact .inl fun rs => writeAll_of_error hagain rs
  · exact .inr (FileTree.exists_isDirAt_of_makeDirs h.formed h.dirPlain hmake)

/-- What a tree grows by when records are saved. -/
theorem grows_saveAll {names : List String} (h : Lodges digest t dir names)
    (hnames : ∀ r ∈ rs, r.name ∈ names) :
    t.Grows (MadePlaces t dir) (EntryPlaces digest t dir names)
      (saveAll digest (.directory dir) t rs).2 := by
  by_cases hne : rs = []
  · subst hne
    exact .refl t
  rw [saveAll_directory h.formed h.dirPlain hne]
  have hmake : t.Grows (MadePlaces t dir) (EntryPlaces digest t dir names) (t.makeDirs dir).1 :=
    (FileTree.grows_makeDirs h.formed h.dirPlain rfl).narrow.mono (fun _ => id) fun _ => False.elim
  rcases h.cases with hnothing | ⟨place, hat⟩
  · rw [hnothing]
    exact hmake
  · have hwrite := grows_writeAll hat h.digestPlain fun r hr =>
      h.unlinked place hat.hasDir _ (hnames r hr)
    refine hmake.trans (hwrite.mono (fun _ => False.elim) ?_)
    rintro _ ⟨r, hr, -, rfl⟩
    exact ⟨place, hat.hasDir, r.name, hnames r hr, rfl⟩

end CacheStore

end LinterSuite
