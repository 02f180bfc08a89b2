import LinterSuite.Cache.Gate
import LinterSuite.Proofs.Cache.Streams

/-!
# What a verdict depends on

A snapshot can be taken of files whose times can be asked for, and whose contents can be read if
they are compared. A linter is unchanged if its record is one of success, with the same fingerprint,
and a snapshot can be taken that differs from the record in nothing that is compared.

## Main definitions

* `FileTree.Observable`: files of which a snapshot can be taken
* `FileTree.LatestTime`: the latest time of some files
* `CacheStore.Spares`: a linter that need not run

## Main results

* `FileTree.exists_snapshot_iff`: when a snapshot can be taken
* `FileTree.snapshot_eq_ok_some_iff`: what is in a snapshot
* `CacheStore.verdictOf_eq_unchanged_iff`: when a linter with a record is unchanged
* `CacheStore.verdict_eq_unchanged_iff`: when a linter with a store is
* `CacheStore.recordOf_spec`: what is in a record
-/

namespace LinterSuite

namespace FileTree

variable {digest : Digest} {t : FileTree} {files : List Path} {checkHash : Bool}

/-! ### Times -/

/-- When the file at a path was last written. -/
def mtime (t : FileTree) (p : Path) : Except FileError Int := (t.times p).map (·.1)

theorem mtime_of_stat {p : Path} {data : FileData} (h : t.stat p = .ok (.file data)) :
    t.mtime p = .ok data.mtime := by
  rw [mtime, times, h]
  rfl

theorem read_of_stat {p : Path} {data : FileData} (h : t.stat p = .ok (.file data)) :
    t.read p = .ok data.content := by
  rw [read, h]
  rfl

/-- The latest time of some files; zero if there are none. -/
def LatestTime (t : FileTree) (files : List Path) (m : Int) : Prop :=
  (files = [] ∧ m = 0) ∨
    ((∃ p ∈ files, t.mtime p = .ok m) ∧ ∀ p ∈ files, ∃ m', t.mtime p = .ok m' ∧ m' ≤ m)

/-- The latest of some times is one of them, and none is later. -/
theorem latest_spec (m : Int) (ms : List Int) :
    latest (m :: ms) ∈ m :: ms ∧ ∀ m' ∈ m :: ms, m' ≤ latest (m :: ms) :=
  List.max?_eq_some_iff.mp List.max?_cons'

theorem latestTime_of_mtimes {ms : List Int} (h : t.mtimes files = .ok ms) :
    t.LatestTime files (latest ms) := by
  have h : files.mapM t.mtime = .ok ms := h
  cases ms with
  | nil =>
    have hlength := (Except.mapM_eq_ok_iff.mp h).length_eq
    exact .inl ⟨List.length_eq_zero_iff.mp hlength, rfl⟩
  | cons m ms =>
    obtain ⟨hmem, hle⟩ := latest_spec m ms
    refine .inr ⟨Except.exists_of_mem_mapM h hmem, fun p hp => ?_⟩
    obtain ⟨m', hm', hp⟩ := Except.exists_mem_of_mapM h hp
    exact ⟨m', hp, hle m' hm'⟩

theorem LatestTime.unique {m m' : Int} (h : t.LatestTime files m) (h' : t.LatestTime files m') :
    m = m' := by
  -- Each of the times is that of a file, so neither is later than the other.
  rcases h with ⟨rfl, rfl⟩ | ⟨⟨p, hp, hm⟩, hle⟩
  · rcases h' with ⟨-, rfl⟩ | ⟨⟨p, hp, -⟩, -⟩
    · rfl
    · simp at hp
  · rcases h' with ⟨rfl, -⟩ | ⟨⟨p', hp', hm'⟩, hle'⟩
    · simp at hp
    · obtain ⟨_, heq, hlow⟩ := hle p' hp'
      obtain rfl := Except.ok.inj (hm'.symm.trans heq)
      obtain ⟨_, heq', hhigh⟩ := hle' p hp
      obtain rfl := Except.ok.inj (hm.symm.trans heq')
      exact Int.le_antisymm hhigh hlow

theorem latestTime_singleton {p : Path} {m : Int} (h : t.mtime p = .ok m) : t.LatestTime [p] m := by
  refine .inr ⟨⟨p, List.mem_singleton_self p, h⟩, fun q hq => ?_⟩
  obtain rfl := List.mem_singleton.mp hq
  exact ⟨m, h, Int.le_refl m⟩

/-! ### Snapshots -/

/-- Files of which a snapshot can be taken. -/
def Observable (t : FileTree) (files : List Path) (checkHash : Bool) : Prop :=
  ∀ p ∈ files, (∃ m, t.mtime p = .ok m) ∧ (checkHash → ∃ content, t.read p = .ok content)

theorem observable_singleton {p : Path} {m : Int} (h : t.mtime p = .ok m) :
    t.Observable [p] false := by
  intro q hq
  obtain rfl := List.mem_singleton.mp hq
  exact ⟨⟨m, h⟩, by simp⟩

theorem snapshot_eq_ok_some_iff_ok {s : Snapshot} :
    t.snapshot digest files checkHash = .ok (some s) ↔
      t.snapshotOrError digest files checkHash = .ok s := by
  unfold snapshot
  split <;> simp_all

/-- What is in a snapshot. -/
theorem snapshot_eq_ok_some_iff {s : Snapshot} :
    t.snapshot digest files checkHash = .ok (some s) ↔
      s.filesDigest = digest (Path.stream files) ∧
      (∃ ms, t.mtimes files = .ok ms ∧ s.latestMtime = latest ms) ∧
      if checkHash then
        ∃ stream, t.contentStream files = .ok stream ∧ s.contentDigest = some (digest stream)
      else s.contentDigest = none := by
  rw [snapshot_eq_ok_some_iff_ok]
  obtain ⟨filesDigest, latestMtime, contentDigest⟩ := s
  cases checkHash with
  | false =>
    simp only [snapshotOrError, Except.bind_eq_ok_iff, Except.pure_eq_ok_iff, Snapshot.mk.injEq,
      Bool.false_eq_true, if_false]
    constructor
    · rintro ⟨ms, hms, _, rfl, rfl, rfl, rfl⟩
      exact ⟨rfl, ⟨ms, hms, rfl⟩, rfl⟩
    · rintro ⟨rfl, ⟨ms, hms, rfl⟩, rfl⟩
      exact ⟨ms, hms, _, rfl, rfl, rfl, rfl⟩
  | true =>
    simp only [snapshotOrError, Except.bind_eq_ok_iff, Except.pure_eq_ok_iff, Snapshot.mk.injEq,
      if_true]
    constructor
    · rintro ⟨ms, hms, stream, hstream, _, rfl, rfl, rfl, rfl⟩
      exact ⟨rfl, ⟨ms, hms, rfl⟩, stream, hstream, rfl⟩
    · rintro ⟨rfl, ⟨ms, hms, rfl⟩, stream, hstream, rfl⟩
      exact ⟨ms, hms, stream, hstream, _, rfl, rfl, rfl, rfl⟩

theorem exists_mtimes_iff :
    (∃ ms, t.mtimes files = .ok ms) ↔ ∀ p ∈ files, ∃ m, t.mtime p = .ok m := by
  constructor
  · rintro ⟨ms, hms⟩ p hp
    obtain ⟨m, -, hm⟩ := Except.exists_mem_of_mapM hms hp
    exact ⟨m, hm⟩
  · exact fun h => Except.exists_mapM_eq_ok h

theorem exists_contentStream_iff :
    (∃ stream, t.contentStream files = .ok stream) ↔
      ∀ p ∈ files, ∃ content, t.read p = .ok content := by
  simp only [contentStream_eq_ok_iff]
  constructor
  · rintro ⟨_, contents, hcontents, -⟩ p hp
    obtain ⟨content, -, hcontent⟩ := Except.exists_mem_of_mapM hcontents hp
    exact ⟨content, hcontent⟩
  · intro h
    obtain ⟨contents, hcontents⟩ := Except.exists_mapM_eq_ok h
    exact ⟨_, contents, hcontents, rfl⟩

/-- A snapshot can be taken exactly of files that can be observed. -/
theorem exists_snapshot_iff :
    (∃ s, t.snapshot digest files checkHash = .ok (some s)) ↔ t.Observable files checkHash := by
  -- Times are read of all files, and contents of all or none.
  have hobservable : t.Observable files checkHash ↔ (∃ ms, t.mtimes files = .ok ms) ∧
      (checkHash → ∃ stream, t.contentStream files = .ok stream) := by
    rw [exists_mtimes_iff, exists_contentStream_iff]
    constructor
    · exact fun h => ⟨fun p hp => (h p hp).1, fun hhash p hp => (h p hp).2 hhash⟩
    · exact fun h p hp => ⟨h.1 p hp, fun hhash => h.2 hhash p hp⟩
  simp only [hobservable, snapshot_eq_ok_some_iff]
  cases checkHash with
  | false =>
    constructor
    · rintro ⟨s, -, ⟨ms, hms, -⟩, -⟩
      exact ⟨⟨ms, hms⟩, by simp⟩
    · rintro ⟨⟨ms, hms⟩, -⟩
      exact ⟨⟨_, _, none⟩, rfl, ⟨ms, hms, rfl⟩, rfl⟩
  | true =>
    constructor
    · rintro ⟨s, -, ⟨ms, hms, -⟩, stream, hstream, -⟩
      exact ⟨⟨ms, hms⟩, fun _ => ⟨stream, hstream⟩⟩
    · rintro ⟨⟨ms, hms⟩, hstream⟩
      obtain ⟨stream, hstream⟩ := hstream rfl
      exact ⟨⟨_, _, some (digest stream)⟩, rfl, ⟨ms, hms, rfl⟩, stream, hstream, rfl⟩

section

variable {t' : FileTree} (h : ∀ p ∈ files, t'.stat p = t.stat p)

include h

theorem mtimes_congr : t'.mtimes files = t.mtimes files := by
  unfold mtimes
  induction files with
  | nil => rfl
  | cons p files ih =>
    obtain ⟨hp, hfiles⟩ := List.forall_mem_cons.mp h
    rw [List.mapM_cons, List.mapM_cons, ih hfiles, times, times, hp]

theorem contentStream_congr : t'.contentStream files = t.contentStream files := by
  induction files with
  | nil => rfl
  | cons p files ih =>
    obtain ⟨hp, hfiles⟩ := List.forall_mem_cons.mp h
    rw [contentStream, contentStream, ih hfiles, read, read, hp]

/-- A snapshot depends on what is found at the files only. -/
theorem snapshot_congr (digest : Digest) (checkHash : Bool) :
    t'.snapshot digest files checkHash = t.snapshot digest files checkHash := by
  unfold snapshot snapshotOrError
  rw [mtimes_congr h, contentStream_congr h]

end

/-- Files that can be observed have paths without null characters. -/
theorem Observable.hasNull (h : t.Observable files checkHash) {p : Path} (hp : p ∈ files) :
    p.hasNull = false := by
  obtain ⟨⟨m, hm⟩, -⟩ := h p hp
  by_contra hnull
  -- Such a path leads nowhere, so there would be no time of the file.
  have hlocate : t.locate true p = .error .nullInPath := by
    simp only [locate, (Bool.not_eq_false _).mp hnull]
  simp [mtime, times, stat, lookup, hlocate, bind, Except.bind, Except.map] at hm

end FileTree

/-! ### Verdicts -/

namespace CacheStore

variable {digest : Digest} {t : FileTree} {files : List Path} {checkHash : Bool}
  {fingerprint name : String}

/-- When a linter with a record is unchanged. -/
theorem verdictOf_eq_unchanged_iff {r : RunRecord} :
    verdictOf digest t files checkHash fingerprint (some r) = .ok .unchanged ↔
      r.succeeded ∧ r.fingerprint = fingerprint ∧
      ∃ s, t.snapshot digest files checkHash = .ok (some s) ∧ s.filesDigest = r.filesDigest ∧
        s.changedSince checkHash r = false := by
  cases hsucceeded : r.succeeded with
  | false => simp [verdictOf, hsucceeded]
  | true =>
    -- Fingerprints are compared before a snapshot is taken.
    by_cases hfingerprint : r.fingerprint = fingerprint
    · simp only [verdictOf, hsucceeded, hfingerprint, Bool.not_true, Bool.false_eq_true, if_false,
        bne_self_eq_false, Except.bind_eq_ok_iff, true_and]
      constructor
      · rintro ⟨_ | s, hs, hverdict⟩
        · simp [pure, Except.pure] at hverdict
        · refine ⟨s, hs, ?_⟩
          simp only at hverdict
          split_ifs at hverdict with hfiles hchanged
          · simp [pure, Except.pure] at hverdict
          · simp [pure, Except.pure] at hverdict
          · exact ⟨by simpa using hfiles, by simpa using hchanged⟩
      · rintro ⟨s, hs, hfiles, hchanged⟩
        refine ⟨some s, hs, ?_⟩
        simp [hfiles, hchanged, pure, Except.pure]
    · simp [verdictOf, hsucceeded, hfingerprint]

/-- What is in the record of a success. -/
theorem recordOf_spec {succeeded : Bool} {r : RunRecord}
    (h : recordOf digest t name files succeeded checkHash fingerprint = .ok r) :
    r.name = name ∧ r.fingerprint = fingerprint ∧
      (r.succeeded ↔ succeeded ∧ ∃ s, t.snapshot digest files checkHash = .ok (some s)) ∧
      (r.succeeded → ∃ s, t.snapshot digest files checkHash = .ok (some s) ∧
        r.filesDigest = s.filesDigest ∧ r.latestMtime = s.latestMtime ∧
        r.contentDigest = s.contentDigest) := by
  cases succeeded with
  | false =>
    obtain rfl := Except.ok.inj h
    exact ⟨rfl, rfl, by simp, by simp⟩
  | true =>
    obtain ⟨snapshot, hsnapshot, h⟩ := Except.bind_eq_ok_iff.mp h
    cases snapshot with
    | none =>
      obtain rfl := Except.ok.inj h
      exact ⟨rfl, rfl, by simp [hsnapshot], by simp⟩
    | some s =>
      obtain rfl := Except.ok.inj h
      exact ⟨rfl, rfl, by simp [hsnapshot], fun _ => ⟨s, hsnapshot, rfl, rfl, rfl⟩⟩

section

variable {t' : FileTree} (h : ∀ p ∈ files, t'.stat p = t.stat p)

include h

/-- A verdict on a record depends on what is found at the files only. -/
theorem verdictOf_congr (record : Option RunRecord) :
    verdictOf digest t' files checkHash fingerprint record =
      verdictOf digest t files checkHash fingerprint record := by
  unfold verdictOf
  rw [FileTree.snapshot_congr h]

/-- So does the record of a run. -/
theorem recordOf_congr (succeeded : Bool) :
    recordOf digest t' name files succeeded checkHash fingerprint =
      recordOf digest t name files succeeded checkHash fingerprint := by
  unfold recordOf
  rw [FileTree.snapshot_congr h]

end

/-- A linter is unchanged exactly if it is since the record that its store gives back. -/
theorem verdict_eq_unchanged_iff {store : CacheStore} :
    store.verdict digest t name files checkHash fingerprint = .ok .unchanged ↔
      ∃ r, store.load digest t name = .ok (some r) ∧
        verdictOf digest t files checkHash fingerprint (some r) = .ok .unchanged := by
  simp only [verdict, Except.bind_eq_ok_iff, Except.mapError_eq_ok_iff]
  constructor
  · rintro ⟨_ | r, hload, hverdict⟩
    · simp [verdictOf] at hverdict
    · exact ⟨r, hload, hverdict⟩
  · rintro ⟨r, hload, hverdict⟩
    exact ⟨some r, hload, hverdict⟩

/-- A linter with its files that need not run. -/
def Spares (digest : Digest) (t : FileTree) (name : String)
    (files : List Path) (checkHash : Bool) (fingerprint : String) (store : CacheStore) : Prop :=
  (verdict digest t store name files checkHash fingerprint).map Verdict.mustRun = .ok false

/-- A linter need not run exactly if it is unchanged since the record that its store gives back. -/
theorem spares_iff {store : CacheStore} :
    store.Spares digest t name files checkHash fingerprint ↔
      ∃ r, store.load digest t name = .ok (some r) ∧
        verdictOf digest t files checkHash fingerprint (some r) = .ok .unchanged := by
  have hmustRun : ∀ v : Verdict, v.mustRun = false ↔ v = .unchanged := by
    rintro (_ | _ | _ | _ | _) <;> decide
  simp only [Spares, Except.map_eq_ok_iff, hmustRun, exists_eq_right]
  exact verdict_eq_unchanged_iff

end CacheStore

end LinterSuite
