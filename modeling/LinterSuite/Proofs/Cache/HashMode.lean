import LinterSuite.Proofs.Cache.Entry
import LinterSuite.Proofs.Cache.Verdict
import LinterSuite.Sha256
import Mathlib.Data.Set.Function

/-!
# Comparing contents

Where contents are compared, a linter need not run again exactly if the streams of its files are the
same. These hold the contents one behind the other, each closed by a null byte, and contents may
hold null bytes themselves. So a linter may need not run although its files have changed: a part of
one file was moved into the next, together with the path that stands between them. This cannot be
if the sizes of the files are what they were, or if no file but the last holds a null byte.

## Main definitions

* `FileTree.SameBytes`, `FileTree.SameSizes`: files that are read alike in two trees
* `FileTree.PlainButLast`: files of which only the last may hold a null byte
* `FileTree.pair`: a tree with two files
* `CacheStore.StillHolds`: a store in which a record stands

## Main results

* `CacheStore.verdictOf_hashed_iff`: a linter is unchanged if the streams are the same
* `CacheStore.spares_hashed_exact`: when that means that the files are the same
* `CacheStore.spares_hashed_moved_bytes`: it does not always
-/

namespace LinterSuite

namespace FileTree

/-- Files that are read as the same bytes in two trees. -/
def SameBytes (t t' : FileTree) (files : List Path) : Prop := ∀ p ∈ files, t'.read p = t.read p

/-- Files that have the same sizes in two trees. -/
def SameSizes (t t' : FileTree) (files : List Path) : Prop :=
  ∀ p ∈ files, (t'.read p).map List.length = (t.read p).map List.length

/-- Files of which only the last may hold a null byte. -/
def PlainButLast (t : FileTree) (files : List Path) : Prop :=
  ∀ p ∈ files.dropLast, ∀ content, t.read p = .ok content → 0 ∉ content

variable {t t' : FileTree} {files : List Path} {xs ys : List (List UInt8)}

theorem sameBytes_iff (hx : files.mapM t.read = .ok xs) (hy : files.mapM t'.read = .ok ys) :
    t.SameBytes t' files ↔ ys = xs := by
  have hid : ∀ x : Except FileError (List UInt8), x.map id = x := by
    rintro (_ | _) <;> rfl
  have hagree := Except.forall_map_eq_iff (g := id) hx hy
  simp only [hid, List.map_id] at hagree
  exact hagree

theorem sameSizes_iff (hx : files.mapM t.read = .ok xs) (hy : files.mapM t'.read = .ok ys) :
    t.SameSizes t' files ↔ ys.map List.length = xs.map List.length :=
  Except.forall_map_eq_iff hx hy

/-- The contents of such files but the last hold no null byte. -/
theorem PlainButLast.not_mem (h : t.PlainButLast files) (hx : files.mapM t.read = .ok xs) :
    ∀ x ∈ xs.dropLast, 0 ∉ x := by
  have hrelated := Except.mapM_eq_ok_iff.mp hx
  have hdropped : files.dropLast.mapM t.read = .ok xs.dropLast := by
    rw [Except.mapM_eq_ok_iff, List.dropLast_eq_take, List.dropLast_eq_take, hrelated.length_eq]
    exact List.forall₂_take _ hrelated
  intro x hmem
  obtain ⟨p, hp, hread⟩ := Except.exists_of_mem_mapM hdropped hmem
  exact h p hp x hread

theorem exists_mtime_of_read {p : Path} {content : List UInt8} (h : t.read p = .ok content) :
    ∃ m, t.mtime p = .ok m := by
  obtain ⟨n, hstat, hn⟩ := Except.bind_eq_ok_iff.mp h
  cases n with
  | file data => exact ⟨data.mtime, by simp [mtime, times, hstat, bind, Except.bind, pure,
      Except.pure, Except.map]⟩
  | dir => simp at hn
  | link => simp at hn

theorem observable_of_read {checkHash : Bool} (h : ∀ p ∈ files, ∃ content, t.read p = .ok content) :
    t.Observable files checkHash := by
  intro p hp
  obtain ⟨content, hcontent⟩ := h p hp
  exact ⟨exists_mtime_of_read hcontent, fun _ => ⟨content, hcontent⟩⟩

/-! ### Two files -/

/-- A tree with two files of these bytes. -/
def pair (a b : List UInt8) : FileTree :=
  { root := .dir 0 [("a", .file ⟨a, 1, false⟩), ("b", .file ⟨b, 1, false⟩)], cwd := [], clock := 2 }

/-- The paths of the two files. -/
def pairFiles : List Path := [⟨.relative, ["a"]⟩, ⟨.relative, ["b"]⟩]

variable {a b a' b' : List UInt8}

theorem read_pair_first : (pair a b).read ⟨.relative, ["a"]⟩ = .ok a :=
  have hstat : (pair a b).stat ⟨.relative, ["a"]⟩ = .ok (.file ⟨a, 1, false⟩) :=
    stat_of_lookup_file "a" rfl (by decide) rfl
  read_of_stat hstat

theorem read_pair_second : (pair a b).read ⟨.relative, ["b"]⟩ = .ok b :=
  have hstat : (pair a b).stat ⟨.relative, ["b"]⟩ = .ok (.file ⟨b, 1, false⟩) :=
    stat_of_lookup_file "b" rfl (by decide) rfl
  read_of_stat hstat

theorem exists_read_pair : ∀ p ∈ pairFiles, ∃ content, (pair a b).read p = .ok content := by
  intro p hp
  simp only [pairFiles, List.mem_cons, List.not_mem_nil, or_false] at hp
  rcases hp with rfl | rfl
  · exact ⟨a, read_pair_first⟩
  · exact ⟨b, read_pair_second⟩

theorem contentStream_pair :
    (pair a b).contentStream pairFiles = .ok ([97, 0] ++ a ++ [0, 98, 0] ++ b ++ [0]) := by
  have hfirst : closedField (Text.utf8 (⟨.relative, ["a"]⟩ : Path).toString) = [97, 0] := by decide
  have hsecond : closedField (Text.utf8 (⟨.relative, ["b"]⟩ : Path).toString) = [98, 0] := by decide
  simp only [pairFiles, contentStream, read_pair_first, read_pair_second, hfirst, hsecond]
  simp [closedField, bind, Except.bind, pure, Except.pure]

theorem not_sameBytes_pair (h : a ≠ a') : ¬ (pair a b).SameBytes (pair a' b') pairFiles := by
  intro hsame
  have hfirst := hsame ⟨.relative, ["a"]⟩ List.mem_cons_self
  simp only [read_pair_first, Except.ok.injEq] at hfirst
  exact h hfirst.symm

theorem plainButLast_pair (h : 0 ∉ a) : (pair a b).PlainButLast pairFiles := by
  intro p hp content hcontent
  obtain rfl : p = ⟨.relative, ["a"]⟩ := by simpa [pairFiles] using hp
  obtain rfl := Except.ok.inj (read_pair_first.symm.trans hcontent)
  exact h

end FileTree

namespace CacheStore

variable {digest : Digest} {t t' : FileTree} {files : List Path}

/-- A store in which a record stands: its entry file, if it has one, is as it was written. -/
def StillHolds (digest : Digest) (t : FileTree) (r : RunRecord) : CacheStore → Prop
  | .memory _ => True
  | .directory dir => Stands (t.child? dir (entryName digest r.name)) (some r)

/-- A record that was saved is given back where it stands. -/
theorem load_save {store : CacheStore} {r : RunRecord}
    (h : (store.save digest t r).1.StillHolds digest t' r) :
    (store.save digest t r).1.load digest t' r.name = .ok (some r) := by
  cases store with
  | memory entries => exact load_memory_save_self ..
  | directory dir =>
    have hstands : Stands (t'.child? dir (entryName digest r.name)) (some r) := h
    exact (load_of_stands hstands r).mpr ⟨rfl, rfl⟩

/-- The record of a successful run in which the contents of readable files are compared. -/
theorem recordOf_hashed (hread : ∀ p ∈ files, ∃ content, t.read p = .ok content)
    (name fingerprint : String) :
    ∃ r stream, recordOf digest t name files true true fingerprint = .ok r ∧
      t.contentStream files = .ok stream ∧ r.name = name ∧ r.fingerprint = fingerprint ∧
      r.succeeded ∧ r.filesDigest = digest (Path.stream files) ∧
      r.contentDigest = some (digest stream) := by
  obtain ⟨s, hs⟩ : ∃ s, t.snapshot digest files true = .ok (some s) :=
    FileTree.exists_snapshot_iff.mpr (FileTree.observable_of_read hread)
  obtain ⟨hfiles, -, stream, hstream, hcontent⟩ := FileTree.snapshot_eq_ok_some_iff.mp hs
  refine ⟨_, stream, by simp only [recordOf, hs, if_true]; rfl, hstream, rfl, rfl, rfl, hfiles, ?_⟩
  exact hcontent

/-- After a run in which contents were compared, a linter is unchanged if the streams are the
same. -/
theorem verdictOf_hashed_iff {fingerprint : String} {r : RunRecord} {stream stream' : List UInt8}
    (hsucceeded : r.succeeded) (hfingerprint : r.fingerprint = fingerprint)
    (hfiles : r.filesDigest = digest (Path.stream files))
    (hcontent : r.contentDigest = some (digest stream))
    (hread : ∀ p ∈ files, ∃ content, t'.read p = .ok content)
    (hstream : t'.contentStream files = .ok stream')
    (hdigest : digest stream' = digest stream → stream' = stream) :
    verdictOf digest t' files true fingerprint (some r) = .ok .unchanged ↔ stream' = stream := by
  rw [verdictOf_eq_unchanged_iff]
  constructor
  · rintro ⟨-, -, s, hs, -, hchanged⟩
    obtain ⟨-, -, _, heq, hs⟩ := FileTree.snapshot_eq_ok_some_iff.mp hs
    obtain rfl := Except.ok.inj (hstream.symm.trans heq)
    refine hdigest ?_
    simpa [Snapshot.changedSince, hs, hcontent] using hchanged
  · rintro rfl
    obtain ⟨s, hs⟩ : ∃ s, t'.snapshot digest files true = .ok (some s) :=
      FileTree.exists_snapshot_iff.mpr (FileTree.observable_of_read hread)
    refine ⟨hsucceeded, hfingerprint, s, hs, ?_⟩
    obtain ⟨hfiles', -, _, heq, hs⟩ := FileTree.snapshot_eq_ok_some_iff.mp hs
    obtain rfl := Except.ok.inj (hstream.symm.trans heq)
    exact ⟨hfiles'.trans hfiles.symm, by simp [Snapshot.changedSince, hs, hcontent]⟩

/-- After a successful run in which the contents of readable files were compared, they are compared
again. If they are the same bytes, the linter need not run. If it need not run, they are the same
bytes exactly if they have the same sizes, and also if only the last of them may hold a null byte,
before and after. -/
theorem spares_hashed_exact (hread : ∀ p ∈ files, ∃ content, t.read p = .ok content)
    (hread' : ∀ p ∈ files, ∃ content, t'.read p = .ok content)
    (hdigest : Set.InjOn digest
      {stream | t.contentStream files = .ok stream ∨ t'.contentStream files = .ok stream})
    (store : CacheStore) (name fingerprint : String) :
    ∃ r store' after, recordOf digest t name files true true fingerprint = .ok r ∧
      recordRun digest t store name files true true fingerprint = .ok (store', after) ∧
      (store'.StillHolds digest t' r →
        (t.SameBytes t' files → store'.Spares digest t' name files true fingerprint) ∧
        (store'.Spares digest t' name files true fingerprint →
          (t.SameBytes t' files ↔ t.SameSizes t' files) ∧
          (t.PlainButLast files → t'.PlainButLast files → t.SameBytes t' files))) := by
  obtain ⟨r, stream, hrecord, hstream, rfl, hfingerprint, hsucceeded, hfiles, hcontent⟩ :=
    @recordOf_hashed digest t files hread name fingerprint
  obtain ⟨stream', hstream'⟩ := FileTree.exists_contentStream_iff.mpr hread'
  obtain ⟨xs, hxs, hx⟩ := FileTree.contentStream_eq_ok_iff.mp hstream
  obtain ⟨ys, hys, hy⟩ := FileTree.contentStream_eq_ok_iff.mp hstream'
  have hxlength : xs.length = files.length := (Except.mapM_eq_ok_iff.mp hxs).length_eq.symm
  have hylength : ys.length = files.length := (Except.mapM_eq_ok_iff.mp hys).length_eq.symm
  refine ⟨r, (store.save digest t r).1, (store.save digest t r).2, hrecord, ?_, fun hholds => ?_⟩
  · simp only [recordRun, hrecord]
    rfl
  · have hspares : (store.save digest t r).1.Spares digest t' r.name files true fingerprint ↔
        stream' = stream := by
      rw [spares_iff, ← verdictOf_hashed_iff hsucceeded hfingerprint hfiles hcontent hread' hstream'
        fun heq => hdigest (.inr hstream') (.inl hstream) heq, load_save hholds]
      simp
    rw [hspares, FileTree.sameBytes_iff hxs hys, FileTree.sameSizes_iff hxs hys, hx, hy]
    refine ⟨fun hsame => by rw [hsame], fun hsame => ⟨⟨fun hbytes => by rw [hbytes], ?_⟩, ?_⟩⟩
    · exact fun hlengths => Path.filledStream_inj_of_lengths hylength hlengths hsame
    · exact fun hplain hplain' => Path.filledStream_inj_of_plain hylength hxlength
        (hplain'.not_mem hys) (hplain.not_mem hxs) hsame

/-- One byte of the first of two files is another, which does not go unnoticed. -/
theorem spares_hashed_exact_changed_byte :
    ∃ (t t' : FileTree) (files : List Path) (store : CacheStore) (after : FileTree),
      (∀ p ∈ files, ∃ content, t.read p = .ok content) ∧
      (∀ p ∈ files, ∃ content, t'.read p = .ok content) ∧
      Set.InjOn Sha256.hex
        {stream | t.contentStream files = .ok stream ∨ t'.contentStream files = .ok stream} ∧
      recordRun Sha256.hex t (.memory []) "lint" files true true "" = .ok (store, after) ∧
      ¬ t.SameBytes t' files ∧ ¬ store.Spares Sha256.hex t' "lint" files true "" := by
  let before := FileTree.pair [120] [0]
  let changed := FileTree.pair [121] [0]
  let files := FileTree.pairFiles
  have hbefore : before.contentStream files = .ok [97, 0, 120, 0, 98, 0, 0, 0] :=
    FileTree.contentStream_pair
  have hafter : changed.contentStream files = .ok [97, 0, 121, 0, 98, 0, 0, 0] :=
    FileTree.contentStream_pair
  have hne : Sha256.hex [97, 0, 120, 0, 98, 0, 0, 0] ≠ Sha256.hex [97, 0, 121, 0, 98, 0, 0, 0] := by
    decide +kernel
  have hdigest : Set.InjOn Sha256.hex {stream |
      before.contentStream files = .ok stream ∨ changed.contentStream files = .ok stream} := by
    refine Set.InjOn.mono ?_ (Set.injOn_pair.mpr fun heq => absurd heq hne)
    rintro stream (hstream | hstream)
    · exact .inl (Except.ok.inj (hstream.symm.trans hbefore))
    · exact .inr (Except.ok.inj (hstream.symm.trans hafter))
  have hchanged : ¬ before.SameBytes changed files := FileTree.not_sameBytes_pair (by decide)
  obtain ⟨r, store, after, -, hrun, hexact⟩ := spares_hashed_exact FileTree.exists_read_pair
    FileTree.exists_read_pair hdigest (.memory []) "lint" ""
  refine ⟨before, changed, files, store, after, FileTree.exists_read_pair,
    FileTree.exists_read_pair, hdigest, hrun, hchanged, ?_⟩
  intro hspares
  have hholds : store.StillHolds Sha256.hex changed r := by
    obtain ⟨saved, -, hsave⟩ := Except.bind_eq_ok_iff.mp hrun
    obtain ⟨rfl, -⟩ := Prod.mk.inj (Except.ok.inj hsave)
    trivial
  obtain ⟨-, himplies⟩ := hexact hholds
  exact hchanged ((himplies hspares).2 (FileTree.plainButLast_pair (by decide))
    (FileTree.plainButLast_pair (by decide)))

/-- Two files with null bytes in them, and the same two after the end of the first was moved to the
front of the second, along with the path between them. Whatever the digest, the linter need not
run. -/
theorem spares_hashed_moved_bytes :
    ∃ (t t' : FileTree) (files : List Path),
      (∀ p ∈ files, ∃ content, t.read p = .ok content) ∧
      (∀ p ∈ files, ∃ content, t'.read p = .ok content) ∧ ¬ t.SameBytes t' files ∧
      ∀ digest : Digest, ∃ store after,
        recordRun digest t (.memory []) "n" files true true "" = .ok (store, after) ∧
        store.Spares digest t' "n" files true "" := by
  let before := FileTree.pair [120, 0, 98, 0, 121] [122]
  let moved := FileTree.pair [120] [121, 0, 98, 0, 122]
  let files := FileTree.pairFiles
  -- Both streams are `a 0 x 0 b 0 y 0 b 0 z 0`.
  have hstreams : moved.contentStream files = before.contentStream files := by
    rw [FileTree.contentStream_pair, FileTree.contentStream_pair]
    rfl
  have hread : ∀ p ∈ files, ∃ content, before.read p = .ok content := FileTree.exists_read_pair
  have hread' : ∀ p ∈ files, ∃ content, moved.read p = .ok content := FileTree.exists_read_pair
  refine ⟨before, moved, files, hread, hread', FileTree.not_sameBytes_pair (by decide),
    fun digest => ?_⟩
  obtain ⟨r, stream, hrecord, hstream, hname, hfingerprint, hsucceeded, hfiles, hcontent⟩ :=
    @recordOf_hashed digest before files hread "n" ""
  refine ⟨_, _, by simp only [recordRun, hrecord]; rfl, ?_⟩
  have hload := load_memory_save_self digest before moved [] r
  rw [hname] at hload
  refine spares_iff.mpr ⟨r, hload, ?_⟩
  exact (verdictOf_hashed_iff hsucceeded hfingerprint hfiles hcontent hread'
    (hstreams.trans hstream) fun _ => rfl).mpr rfl

end CacheStore

end LinterSuite
