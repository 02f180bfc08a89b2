import LinterSuite.Cache.Snapshot
import LinterSuite.Proofs.Fallible
import LinterSuite.Proofs.Text.Separators
import LinterSuite.Proofs.Text.Utf8

/-!
# What streams tell apart

A stream closes every field by a null byte. Where no field holds one, each ends at the first null
byte, and the stream says what its fields are. Contents of files are not like that: a null byte in
one of them may as well close it, and then two lists of contents have the same stream. They are told
apart if their sizes agree, or if null bytes are in the last of them only.

## Main definitions

* `Path.filledStream`: the stream of some paths with given contents

## Main results

* `fieldStream_inj`: fields without null characters are told apart
* `Path.stream_inj`: so are the paths of files
* `Path.filledStream_inj_of_lengths`, `Path.filledStream_inj_of_plain`: when contents are
* `FileTree.contentStream_eq_ok_iff`: the stream of readable files
-/

namespace LinterSuite

/-! ### Fields -/

/-- Fields without null bytes in front of two equal streams are the same: each ends at the first
null byte. -/
theorem closedField_append_inj {xs ys rest rest' : List UInt8} (hx : 0 ∉ xs) (hy : 0 ∉ ys)
    (h : closedField xs ++ rest = closedField ys ++ rest') : xs = ys ∧ rest = rest' := by
  simp only [closedField, List.append_assoc, List.singleton_append] at h
  exact append_cons_inj hx hy h

/-- Fields of one length in front of two equal streams are the same, whatever is in them. -/
theorem closedField_append_inj_of_length {xs ys rest rest' : List UInt8}
    (hlength : xs.length = ys.length) (h : closedField xs ++ rest = closedField ys ++ rest') :
    xs = ys ∧ rest = rest' := by
  have hclosed : (closedField xs).length = (closedField ys).length := by
    simp [closedField, hlength]
  obtain ⟨hfield, hrest⟩ := List.append_inj h hclosed
  exact ⟨List.append_cancel_right hfield, hrest⟩

/-- Fields without null characters are told apart by their stream. -/
theorem fieldStream_inj {xs ys : List String} (hx : ∀ x ∈ xs, '\x00' ∉ x.toList)
    (hy : ∀ y ∈ ys, '\x00' ∉ y.toList) (h : fieldStream xs = fieldStream ys) : xs = ys := by
  induction xs generalizing ys with
  | nil =>
    cases ys with
    | nil => rfl
    | cons y ys => simp [fieldStream, closedField] at h
  | cons x xs ih =>
    cases ys with
    | nil => simp [fieldStream, closedField] at h
    | cons y ys =>
      obtain ⟨hx, hxs⟩ := List.forall_mem_cons.mp hx
      obtain ⟨hy, hys⟩ := List.forall_mem_cons.mp hy
      have hbytes : ∀ s : String, '\x00' ∉ s.toList → 0 ∉ Text.utf8 s :=
        fun s hs => mt Text.zero_mem_utf8_iff.mp hs
      simp only [fieldStream, List.flatMap_cons] at h
      obtain ⟨hfirst, hrest⟩ := closedField_append_inj (hbytes x hx) (hbytes y hy) h
      rw [Text.utf8_injective hfirst, ih hxs hys hrest]

/-! ### Paths -/

namespace Path

/-- A path without null characters is written without them. -/
theorem not_mem_toString_of_hasNull {p : Path} (h : p.hasNull = false) :
    '\x00' ∉ p.toString.toList := by
  have hparts : ∀ part ∈ p.parts, '\x00' ∉ part.toList := by
    simpa [hasNull] using h
  have hanchor : ∀ anchor : Anchor, '\x00' ∉ anchor.text.toList := by
    rintro (_ | _ | _) <;> decide
  have hjoined : '\x00' ∉ ("/".intercalate p.parts).toList := by
    rw [String.toList_intercalate]
    intro hmem
    rcases mem_or_mem_of_mem_intercalate hmem with hseparator | ⟨part, hpart, hmem⟩
    · exact absurd hseparator (by decide)
    · obtain ⟨name, hname, rfl⟩ := List.mem_map.mp hpart
      exact hparts name hname hmem
  unfold toString
  split
  · decide
  · rw [String.toList_append, List.mem_append, not_or]
    exact ⟨hanchor _, hjoined⟩

/-- Paths without null characters are told apart, as texts, by their stream. -/
theorem stream_inj {files files' : List Path} (h : ∀ p ∈ files, p.hasNull = false)
    (h' : ∀ p ∈ files', p.hasNull = false) (heq : stream files = stream files') :
    files.map toString = files'.map toString := by
  refine fieldStream_inj ?_ ?_ heq
  · exact List.forall_mem_map.mpr fun p hp => not_mem_toString_of_hasNull (h p hp)
  · exact List.forall_mem_map.mpr fun p hp => not_mem_toString_of_hasNull (h' p hp)

/-! ### Paths with contents -/

/-- The stream of some paths with given contents. -/
def filledStream : List Path → List (List UInt8) → List UInt8
  | p :: files, content :: contents =>
    closedField (Text.utf8 p.toString) ++ (closedField content ++ filledStream files contents)
  | _, _ => []

/-- Contents of one size each are told apart. -/
theorem filledStream_inj_of_lengths {files : List Path} {xs ys : List (List UInt8)}
    (hx : xs.length = files.length) (hlengths : xs.map List.length = ys.map List.length)
    (h : filledStream files xs = filledStream files ys) : xs = ys := by
  induction files generalizing xs ys with
  | nil =>
    obtain rfl : xs = [] := List.length_eq_zero_iff.mp hx
    exact (List.map_eq_nil_iff.mp hlengths.symm).symm
  | cons p files ih =>
    obtain ⟨x, xs, rfl⟩ := List.exists_cons_of_length_eq_add_one hx
    cases ys with
    | nil => simp at hlengths
    | cons y ys =>
      obtain ⟨hlength, hothers⟩ := List.cons.inj hlengths
      have hcontents := List.append_cancel_left h
      obtain ⟨rfl, hrest⟩ := closedField_append_inj_of_length hlength hcontents
      rw [ih (Nat.succ.inj hx) hothers hrest]

/-- Contents of which only the last may hold a null byte are told apart. -/
theorem filledStream_inj_of_plain {files : List Path} {xs ys : List (List UInt8)}
    (hx : xs.length = files.length) (hy : ys.length = files.length)
    (hxplain : ∀ x ∈ xs.dropLast, 0 ∉ x) (hyplain : ∀ y ∈ ys.dropLast, 0 ∉ y)
    (h : filledStream files xs = filledStream files ys) : xs = ys := by
  induction files generalizing xs ys with
  | nil => rw [List.length_eq_zero_iff.mp hx, List.length_eq_zero_iff.mp hy]
  | cons p files ih =>
    obtain ⟨x, xs, rfl⟩ := List.exists_cons_of_length_eq_add_one hx
    obtain ⟨y, ys, rfl⟩ := List.exists_cons_of_length_eq_add_one hy
    have hcontents := List.append_cancel_left h
    cases files with
    | nil =>
      -- The last content is all that is left of the stream but for the null byte at its end.
      obtain rfl : xs = [] := List.length_eq_zero_iff.mp (Nat.succ.inj hx)
      obtain rfl : ys = [] := List.length_eq_zero_iff.mp (Nat.succ.inj hy)
      simpa [filledStream, closedField] using hcontents
    | cons q files =>
      obtain ⟨x', xs, rfl⟩ := List.exists_cons_of_length_eq_add_one (Nat.succ.inj hx)
      obtain ⟨y', ys, rfl⟩ := List.exists_cons_of_length_eq_add_one (Nat.succ.inj hy)
      obtain ⟨hxhead, hxothers⟩ := List.forall_mem_cons.mp hxplain
      obtain ⟨hyhead, hyothers⟩ := List.forall_mem_cons.mp hyplain
      obtain ⟨rfl, hrest⟩ := closedField_append_inj hxhead hyhead hcontents
      rw [ih (Nat.succ.inj hx) (Nat.succ.inj hy) hxothers hyothers hrest]

end Path

namespace FileTree

/-- The stream of readable files is that of their paths filled with their contents. -/
theorem contentStream_eq_ok_iff {t : FileTree} {files : List Path} {stream : List UInt8} :
    t.contentStream files = .ok stream ↔
      ∃ contents, files.mapM t.read = .ok contents ∧ stream = Path.filledStream files contents := by
  induction files generalizing stream with
  | nil => simp [contentStream, Path.filledStream, pure, Except.pure, eq_comm]
  | cons p files ih =>
    simp only [contentStream, List.mapM_cons, Except.bind_eq_ok_iff, ih, Except.pure_eq_ok_iff]
    constructor
    · rintro ⟨content, hcontent, _, ⟨contents, hcontents, rfl⟩, rfl⟩
      exact ⟨_, ⟨content, hcontent, contents, hcontents, rfl⟩, by simp [Path.filledStream]⟩
    · rintro ⟨_, ⟨content, hcontent, contents, hcontents, rfl⟩, rfl⟩
      exact ⟨content, hcontent, _, ⟨contents, hcontents, rfl⟩, by simp [Path.filledStream]⟩

end FileTree

end LinterSuite
