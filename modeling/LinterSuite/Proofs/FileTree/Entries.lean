import LinterSuite.Proofs.FileTree.Resolution
import LinterSuite.Proofs.Text.Paths

/-!
# Entries of a directory

A path with one more component than another leads to an entry of the directory that the other leads
to. Writing a file there puts it among the entries and leaves the others as they are.

## Main definitions

* `Path.Fits`: a name with which a path is not too long
* `FileTree.HasDir`: a path that leads to a directory in a place
* `FileTree.child?`: what a directory has under a name

## Main results

* `FileTree.child?_eq_some_iff`: entries are those of the directory that the path leads to
* `FileTree.write_eq_ok_of_isFree`: an entry that is free can be written
* `FileTree.child?_write_self`, `FileTree.child?_write_of_ne`: entries after a file was written
* `FileTree.makeDirs_of_hasDir`: nothing is made where there is a directory
-/

namespace LinterSuite

namespace Path

/-- A name that can be looked for behind a path: with it the path is not too long. -/
structure Fits (dir : Path) (name : String) : Prop where
  ne_dot : name ≠ "."
  ne_dots : name ≠ ".."
  no_null : (dir.child name).hasNull = false
  name_short : name.utf8ByteSize ≤ FileTree.nameLimit
  path_short : (dir.child name).toString.utf8ByteSize ≤ FileTree.pathLimit

variable {dir : Path} {name : String}

theorem fits_iff : dir.Fits name ↔ name ≠ "." ∧ name ≠ ".." ∧ (dir.child name).hasNull = false ∧
    name.utf8ByteSize ≤ FileTree.nameLimit ∧
    (dir.child name).toString.utf8ByteSize ≤ FileTree.pathLimit :=
  ⟨fun h => ⟨h.ne_dot, h.ne_dots, h.no_null, h.name_short, h.path_short⟩,
    fun ⟨hdot, hdots, hnull, hname, hpath⟩ => ⟨hdot, hdots, hnull, hname, hpath⟩⟩

instance (dir : Path) (name : String) : Decidable (dir.Fits name) := decidable_of_iff' _ fits_iff

theorem hasNull_of_fits (h : dir.Fits name) : dir.hasNull = false := by
  have hchild := h.no_null
  simp only [hasNull, child, List.any_append, Bool.or_eq_false_iff] at hchild
  exact hchild.1

/-- A path without its last component is no longer than with it. -/
theorem utf8ByteSize_toString_le (dir : Path) (hname : name ≠ "") :
    dir.toString.utf8ByteSize ≤ (dir.child name).toString.utf8ByteSize := by
  have hpos : 0 < name.utf8ByteSize :=
    Nat.pos_of_ne_zero (mt String.utf8ByteSize_eq_zero_iff.mp hname)
  have hchild : (dir.child name).toString =
      dir.anchor.text ++ "/".intercalate (dir.parts ++ [name]) :=
    toString_of_ne_nil (by simp [child])
  rw [hchild]
  by_cases hparts : dir.parts = []
  · have hdir : dir.toString.utf8ByteSize ≤ dir.anchor.text.utf8ByteSize + 1 := by
      obtain ⟨anchor, parts⟩ := dir
      obtain rfl : parts = [] := hparts
      cases anchor <;> decide
    rw [hparts, List.nil_append, String.intercalate_singleton, String.utf8ByteSize_append]
    omega
  · rw [toString_of_ne_nil hparts, String.intercalate_append_of_ne_nil hparts (by simp)]
    simp only [String.utf8ByteSize_append]
    omega

theorem short_of_fits (h : dir.Fits name) (hname : name ≠ "") :
    dir.toString.utf8ByteSize ≤ FileTree.pathLimit :=
  Nat.le_trans (utf8ByteSize_toString_le dir hname) h.path_short

end Path

namespace FileTree

variable {t : FileTree} {dir : Path} {name : String} {place : List String}

/-- A path that leads to a directory in a place. -/
def HasDir (t : FileTree) (dir : Path) (place : List String) : Prop :=
  LeadsTo t.root linkLimit (if dir.isAbsolute then [] else t.cwd) dir.parts place

/-- What a directory has under a name. -/
def child? (t : FileTree) (dir : Path) (name : String) : Option Node :=
  (t.lstat (dir.child name)).toOption

/-- A path to something leads to a place where it is. -/
theorem lookup_eq_ok_iff {follow : Bool} {p : Path} {n : Node} :
    t.lookup follow p = .ok n ↔ ∃ place, t.locate follow p = .ok place ∧
      t.root.get? place = some n := by
  unfold lookup
  rw [Except.bind_eq_ok_iff]
  refine exists_congr fun place => and_congr_right fun _ => ?_
  cases t.root.get? place <;> simp [pure, Except.pure]

theorem locate_eq_ok_iff {follow : Bool} {p : Path} {place : List String} :
    t.locate follow p = .ok place ↔ p.hasNull = false ∧ p.toString.utf8ByteSize ≤ pathLimit ∧
      locateFrom t.root follow linkLimit (if p.isAbsolute then [] else t.cwd) p.parts =
        .ok place := by
  unfold locate
  cases hnull : p.hasNull with
  | true => simp
  | false =>
    by_cases hlong : pathLimit < p.toString.utf8ByteSize
    · simp [hlong, Nat.not_le.mpr hlong]
    · simp [hlong, Nat.not_lt.mp hlong]

/-- The path of an entry leads to the place of that name in the directory, with a final link
followed or not, unless there is a link to be followed. -/
theorem locate_child (hdir : t.HasDir dir place) {mtime : Int} {es : List (String × Node)}
    (hget : t.root.get? place = some (.dir mtime es)) (hfits : dir.Fits name) {follow : Bool}
    (hlink : follow → ∀ text, es.lookup name ≠ some (.link text)) :
    t.locate follow (dir.child name) = .ok (place ++ [name]) :=
  locate_eq_ok_iff.mpr ⟨hfits.no_null, hfits.path_short,
    hdir.locateFrom_concat hget hfits.ne_dot hfits.ne_dots hfits.name_short hlink⟩

/-- The path of an entry can only be located if it fits and the directory is there. -/
theorem hasDir_of_locate_child {follow : Bool} {there : List String} (hdot : name ≠ ".")
    (hdots : name ≠ "..") (h : t.locate follow (dir.child name) = .ok there) :
    dir.Fits name ∧ ∃ place, t.HasDir dir place := by
  obtain ⟨hnull, hsize, hlocate⟩ := locate_eq_ok_iff.mp h
  obtain ⟨hshort, place, hdir⟩ := leadsTo_of_locateFrom_concat hlocate hdot hdots
  exact ⟨⟨hdot, hdots, hnull, hshort, hsize⟩, place, hdir⟩

/-- What a directory has under a name is what is at the path of the entry. -/
theorem child?_eq_some_iff {n : Node} :
    t.child? dir name = some n ↔ t.lookup false (dir.child name) = .ok n := by
  unfold child? lstat
  cases t.lookup false (dir.child name) <;> simp [Except.toOption]

/-- Entries are those of the directory that the path leads to. -/
theorem child?_eq_some_iff_lookup (hdir : t.HasDir dir place) {mtime : Int}
    {es : List (String × Node)} (hget : t.root.get? place = some (.dir mtime es))
    (hdot : name ≠ ".") (hdots : name ≠ "..") {n : Node} :
    t.child? dir name = some n ↔ dir.Fits name ∧ es.lookup name = some n := by
  rw [child?_eq_some_iff, lookup_eq_ok_iff]
  constructor
  · rintro ⟨there, hlocate, hthere⟩
    obtain ⟨hfits, -⟩ := hasDir_of_locate_child hdot hdots hlocate
    have hplace : t.locate false (dir.child name) = .ok (place ++ [name]) :=
      locate_child hdir hget hfits (by simp)
    obtain rfl := Except.ok.inj (hlocate.symm.trans hplace)
    exact ⟨hfits, (Node.get?_concat hget name).symm.trans hthere⟩
  · rintro ⟨hfits, hentry⟩
    exact ⟨_, locate_child hdir hget hfits (by simp), (Node.get?_concat hget name).trans hentry⟩

/-- Where there is an entry, there is the directory. -/
theorem hasDir_of_child? {n : Node} (hdot : name ≠ ".") (hdots : name ≠ "..")
    (h : t.child? dir name = some n) : dir.Fits name ∧ ∃ place, t.HasDir dir place := by
  obtain ⟨there, hlocate, -⟩ := lookup_eq_ok_iff.mp (child?_eq_some_iff.mp h)
  exact hasDir_of_locate_child hdot hdots hlocate

/-- An entry that is a file is what its path leads to. -/
theorem stat_of_child?_file {data : FileData} (hdot : name ≠ ".") (hdots : name ≠ "..")
    (h : t.child? dir name = some (.file data)) : t.stat (dir.child name) = .ok (.file data) := by
  obtain ⟨hfits, place, hdir⟩ := hasDir_of_child? hdot hdots h
  obtain ⟨_, es, hget⟩ := hdir.exists_dir
  obtain ⟨-, hentry⟩ := (child?_eq_some_iff_lookup hdir hget hdot hdots).mp h
  exact lookup_eq_ok_iff.mpr ⟨_, locate_child hdir hget hfits (by simp [hentry]),
    (Node.get?_concat hget name).trans hentry⟩

/-- A file in the current directory is what its name leads to. -/
theorem stat_of_lookup_file (name : String) {mtime : Int} {es : List (String × Node)}
    (hget : t.root.get? t.cwd = some (.dir mtime es)) (hfits : (⟨.relative, []⟩ : Path).Fits name)
    {data : FileData} (h : es.lookup name = some (.file data)) :
    t.stat ⟨.relative, [name]⟩ = .ok (.file data) :=
  have hdir : t.HasDir ⟨.relative, []⟩ t.cwd := .here hget
  stat_of_child?_file hfits.ne_dot hfits.ne_dots
    ((child?_eq_some_iff_lookup hdir hget hfits.ne_dot hfits.ne_dots).mpr ⟨hfits, h⟩)

/-- Where there is no entry, the path leads to nothing. -/
theorem stat_of_child?_none (hdot : name ≠ ".") (hdots : name ≠ "..")
    (h : t.child? dir name = none) : ∃ e, t.stat (dir.child name) = .error e := by
  cases hstat : t.stat (dir.child name) with
  | error e => exact ⟨e, rfl⟩
  | ok n =>
    obtain ⟨there, hlocate, hthere⟩ := lookup_eq_ok_iff.mp hstat
    obtain ⟨hfits, place, hdir⟩ := hasDir_of_locate_child hdot hdots hlocate
    obtain ⟨_, es, hget⟩ := hdir.exists_dir
    have hentry : es.lookup name = none := by
      by_contra hne
      obtain ⟨m, hm⟩ := Option.ne_none_iff_exists'.mp hne
      have hsome := (child?_eq_some_iff_lookup hdir hget hdot hdots).mpr ⟨hfits, hm⟩
      simp [h] at hsome
    have hplace : t.locate true (dir.child name) = .ok (place ++ [name]) :=
      locate_child hdir hget hfits (by simp [hentry])
    obtain rfl := Except.ok.inj (hlocate.symm.trans hplace)
    rw [Node.get?_concat hget, hentry] at hthere
    simp at hthere

/-! ### Writing an entry -/

/-- What is free as an entry is free in the directory. -/
theorem isFree_lookup (hdir : t.HasDir dir place) {mtime : Int} {es : List (String × Node)}
    (hget : t.root.get? place = some (.dir mtime es)) (hfits : dir.Fits name)
    (hfree : Node.IsFree (t.child? dir name)) : Node.IsFree (es.lookup name) := by
  have hentry : t.child? dir name = es.lookup name := by
    refine Option.ext fun n => ?_
    rw [child?_eq_some_iff_lookup hdir hget hfits.ne_dot hfits.ne_dots]
    exact and_iff_right hfits
  rwa [hentry] at hfree

/-- Where there is a directory, a file can be written as an entry that is free, and is put in its
place. -/
theorem write_eq_ok_of_isFree (hdir : t.HasDir dir place) (hfits : dir.Fits name)
    (hfree : Node.IsFree (t.child? dir name)) (content : List UInt8) :
    ∃ data : FileData, data.content = content ∧ t.write (dir.child name) content = .ok
      { t with
        root := t.root.insert t.clock (place ++ [name]) (.file data)
        clock := t.clock + 1 } := by
  obtain ⟨mtime, es, hget⟩ := hdir.exists_dir
  have hentry := isFree_lookup hdir hget hfits hfree
  have hplace : t.locate true (dir.child name) = .ok (place ++ [name]) := by
    refine locate_child hdir hget hfits fun _ text hlink => ?_
    simp [hlink, Node.IsFree] at hentry
  simp only [write, hplace, bind, Except.bind, List.dropLast_concat, hget, Node.get?_concat hget]
  rcases hentry with hnone | ⟨old, hold⟩
  · simp only [hnone]
    exact ⟨_, rfl, rfl⟩
  · simp only [hold]
    exact ⟨_, rfl, rfl⟩

/-- A file that is written where there was nothing, or a file before, is put into the directory, to
which the path still leads. -/
theorem write_child {t' : FileTree} {content : List UInt8} (hdot : name ≠ ".") (hdots : name ≠ "..")
    (hfree : Node.IsFree (t.child? dir name)) (h : t.write (dir.child name) content = .ok t') :
    dir.Fits name ∧ ∃ place mtime es data, data.content = content ∧ t.HasDir dir place ∧
      t.root.get? place = some (.dir mtime es) ∧ t'.HasDir dir place ∧
      t'.root.get? place = some (.dir mtime (Keyed.put es name (.file data))) := by
  obtain ⟨there, hlocate, -⟩ := Except.bind_eq_ok_iff.mp h
  obtain ⟨hfits, place, hdir⟩ := hasDir_of_locate_child hdot hdots hlocate
  obtain ⟨mtime, es, hget⟩ := hdir.exists_dir
  have hentry := isFree_lookup hdir hget hfits hfree
  obtain ⟨data, hcontent, hwrite⟩ := write_eq_ok_of_isFree hdir hfits hfree content
  obtain rfl := Except.ok.inj (hwrite.symm.trans h)
  refine ⟨hfits, place, mtime, es, data, hcontent, hdir, hget, ?_, Node.get?_insert hget ..⟩
  -- The place was free, so no path to a directory goes through it.
  have hagree := Node.agreesOff_insert_file hget hentry t.clock data
  have hplacefree : Node.IsFree (t.root.get? (place ++ [name])) := by
    rwa [Node.get?_concat hget]
  exact LeadsTo.of_agreesOff hagree hplacefree hdir

/-- What is written is the entry. -/
theorem child?_write_self {t' : FileTree} {content : List UInt8} (hdot : name ≠ ".")
    (hdots : name ≠ "..") (hfree : Node.IsFree (t.child? dir name))
    (h : t.write (dir.child name) content = .ok t') :
    ∃ data, t'.child? dir name = some (.file data) ∧ data.content = content := by
  obtain ⟨hfits, place, mtime, es, data, hcontent, -, -, hdir', hget'⟩ :=
    write_child hdot hdots hfree h
  refine ⟨data, ?_, hcontent⟩
  exact (child?_eq_some_iff_lookup hdir' hget' hdot hdots).mpr ⟨hfits, Keyed.lookup_put_self ..⟩

/-- The other entries are what they were. -/
theorem child?_write_of_ne {t' : FileTree} {content : List UInt8} (hdot : name ≠ ".")
    (hdots : name ≠ "..") (hfree : Node.IsFree (t.child? dir name))
    (h : t.write (dir.child name) content = .ok t') {other : String} (hother : other ≠ name)
    (hdot' : other ≠ ".") (hdots' : other ≠ "..") :
    t'.child? dir other = t.child? dir other := by
  obtain ⟨-, place, mtime, es, data, -, hdir, hget, hdir', hget'⟩ := write_child hdot hdots hfree h
  refine Option.ext fun n => ?_
  rw [child?_eq_some_iff_lookup hdir hget hdot' hdots',
    child?_eq_some_iff_lookup hdir' hget' hdot' hdots', Keyed.lookup_put_of_ne _ hother]

/-! ### Making a directory -/

/-- Nothing is made where there is a directory. -/
theorem makeDirs_of_hasDir (hdir : t.HasDir dir place) (hnull : dir.hasNull = false)
    (hshort : dir.toString.utf8ByteSize ≤ pathLimit) : t.makeDirs dir = (t, .ok ()) := by
  have hisDir : t.isDir dir := by
    obtain ⟨mtime, es, hget⟩ := hdir.exists_dir
    have hstat : t.stat dir = .ok (.dir mtime es) :=
      lookup_eq_ok_iff.mpr ⟨place, locate_eq_ok_iff.mpr ⟨hnull, hshort, hdir.locateFrom_eq⟩, hget⟩
    simp [isDir, hstat]
  -- Making it fails because it is there, and this is passed over for a directory.
  have hmake : t.makeDir dir = .error .exists_ := by
    obtain ⟨there, n, hlocate, hthere⟩ := hdir.exists_of_not_follow
    have hlocate : t.locate false dir = .ok there :=
      locate_eq_ok_iff.mpr ⟨hnull, hshort, hlocate⟩
    simp [makeDir, hlocate, hthere, bind, Except.bind]
  have hensure : t.ensureDir dir = (t, .ok ()) := by
    simp [ensureDir, hmake, hisDir]
  rw [makeDirs, hensure]

end FileTree

end LinterSuite
