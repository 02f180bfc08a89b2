import LinterSuite.Proofs.Cache.Entry
import LinterSuite.Proofs.Cache.Verdict
import LinterSuite.Sha256
import Mathlib.Data.Set.Function

/-!
# The cache over a history of calls

A cache is told of runs and consulted in any order, about any linters, while the files change in
between. Its answer is compared with the runs it was told of: a linter need not run if the last run
of it was a success with the same inputs. The link between the two is that the store agrees, after
every call, with the records of all runs so far.

A report of a run is refused if the path of one of its files has a null character. It leaves the
record of an earlier run in place. So the last run that counts is the last whose report was not
refused.

## Main definitions

* `CacheReport`: a run that the cache was told of
* `CacheReport.StillGood`: a run that need not be made again
* `CacheCall`, `CacheHistory.step`, `CacheHistory.run`: calls, and what they do
* `CacheCall.hashedIn`: everything of which digests are taken in some calls
* `CacheHistory.Orderly`: calls between which nobody else changes entries, and which can write them
* `CacheHistory.IsFaithful`: a store that agrees with the reports

## Main results

* `CacheHistory.isFaithful_step`, `CacheHistory.isFaithful_run`: calls keep a store faithful
* `CacheHistory.spares_iff_lastKept`: the answer after any calls
* `CacheHistory.spares_exact`: when it is the one that the last report calls for
* `CacheHistory.spares_after_refused`: it is not always
-/

namespace LinterSuite

/-! ### Reports of runs -/

/-- A run that the cache was told of, with the files as they were then. -/
structure CacheReport where
  tree : FileTree
  name : String
  files : List Path
  succeeded : Bool
  checkHash : Bool
  fingerprint : String

namespace CacheReport

variable {digest : Digest} {report : CacheReport} {t : FileTree} {files : List Path}
  {checkHash : Bool} {fingerprint : String}

/-- The record of the run, or why the report is refused. -/
def record (digest : Digest) (report : CacheReport) : Except FileTree.PathError RunRecord :=
  CacheStore.recordOf digest report.tree report.name report.files report.succeeded report.checkHash
    report.fingerprint

/-- A report that is refused, and leaves everything as it is. -/
def IsRefused (digest : Digest) (report : CacheReport) : Prop := (report.record digest).isOk = false

/-- A run that need not be made again on some files. It was a success, its files could be read, and
it had the same fingerprint and the same paths. The files can be read now, and they have not
changed: their latest time is no later, or, if contents are compared, these were compared then and
have the same digest. -/
structure StillGood (digest : Digest) (report : CacheReport) (t : FileTree) (files : List Path)
    (checkHash : Bool) (fingerprint : String) : Prop where
  succeeded : report.succeeded
  observed : report.tree.Observable report.files report.checkHash
  sameFingerprint : report.fingerprint = fingerprint
  samePaths : report.files.map Path.toString = files.map Path.toString
  observable : t.Observable files checkHash
  noLater : checkHash = false → ∃ m m', report.tree.LatestTime report.files m ∧
    t.LatestTime files m' ∧ m' ≤ m
  sameContents : checkHash = true → report.checkHash ∧ ∃ stream stream',
    report.tree.contentStream report.files = .ok stream ∧
    t.contentStream files = .ok stream' ∧ digest stream' = digest stream

/-- A report is refused only because of a null character in the path of a file. -/
theorem isRefused_iff : report.IsRefused digest ↔ report.succeeded ∧
    report.tree.snapshotOrError digest report.files report.checkHash = .error .nullInPath := by
  unfold IsRefused record CacheStore.recordOf FileTree.snapshot
  cases report.succeeded with
  | false => simp [pure, Except.pure, Except.isOk, Except.toBool]
  | true =>
    cases report.tree.snapshotOrError digest report.files report.checkHash with
    | ok s => simp [bind, Except.bind, pure, Except.pure, Except.isOk, Except.toBool]
    | error e => cases e <;> simp [bind, Except.bind, pure, Except.pure, Except.isOk, Except.toBool]

/-- A report whose files could be read is not refused. -/
theorem record_of_observed (h : report.tree.Observable report.files report.checkHash) :
    ∃ saved, report.record digest = .ok saved := by
  obtain ⟨s, hs⟩ : ∃ s, report.tree.snapshot digest report.files report.checkHash = .ok (some s) :=
    FileTree.exists_snapshot_iff.mpr h
  unfold record CacheStore.recordOf
  cases report.succeeded with
  | false => exact ⟨_, rfl⟩
  | true => exact ⟨_, by simp only [hs, if_true]; rfl⟩

theorem StillGood.not_isRefused
    (h : report.StillGood digest t files checkHash fingerprint) : ¬ report.IsRefused digest := by
  obtain ⟨saved, hsaved⟩ : ∃ saved, report.record digest = .ok saved :=
    record_of_observed h.observed
  simp [IsRefused, hsaved, Except.isOk, Except.toBool]

/-- The paths of files that can be observed are told apart by their streams. -/
theorem samePaths_iff {t' : FileTree} {files' : List Path} {checkHash' : Bool}
    (h : t.Observable files checkHash) (h' : t'.Observable files' checkHash') :
    Path.stream files = Path.stream files' ↔ files.map Path.toString = files'.map Path.toString :=
  ⟨Path.stream_inj (fun _ => h.hasNull) (fun _ => h'.hasNull), congrArg fieldStream⟩

/-- A snapshot is not later than another if the latest times are not. -/
theorem latest_le_iff {t' : FileTree} {files' : List Path} {ms ms' : List Int}
    (h : t.mtimes files = .ok ms) (h' : t'.mtimes files' = .ok ms') :
    FileTree.latest ms' ≤ FileTree.latest ms ↔
      ∃ m m', t.LatestTime files m ∧ t'.LatestTime files' m' ∧ m' ≤ m := by
  have hm := FileTree.latestTime_of_mtimes h
  have hm' := FileTree.latestTime_of_mtimes h'
  constructor
  · exact fun hle => ⟨_, _, hm, hm', hle⟩
  · rintro ⟨m, m', hlatest, hlatest', hle⟩
    rwa [hm.unique hlatest, hm'.unique hlatest']

/-- What is compared between a snapshot and the record of an earlier one. -/
theorem changedSince_eq_false_iff {s before : Snapshot} {saved : RunRecord}
    (hs : t.snapshot digest files checkHash = .ok (some s))
    (hbefore : report.tree.snapshot digest report.files report.checkHash = .ok (some before))
    (hmtime : saved.latestMtime = before.latestMtime)
    (hcontent : saved.contentDigest = before.contentDigest) :
    s.changedSince checkHash saved = false ↔
      (checkHash = false → ∃ m m', report.tree.LatestTime report.files m ∧
        t.LatestTime files m' ∧ m' ≤ m) ∧
      (checkHash = true → report.checkHash ∧ ∃ stream stream',
        report.tree.contentStream report.files = .ok stream ∧
        t.contentStream files = .ok stream' ∧ digest stream' = digest stream) := by
  obtain ⟨-, ⟨ms', hms', hlatest'⟩, hcontent'⟩ := FileTree.snapshot_eq_ok_some_iff.mp hs
  obtain ⟨-, ⟨ms, hms, hlatest⟩, hcontents⟩ := FileTree.snapshot_eq_ok_some_iff.mp hbefore
  unfold Snapshot.changedSince
  rw [hmtime, hcontent]
  cases checkHash with
  | false =>
    rw [hlatest, hlatest']
    simpa using latest_le_iff hms hms'
  | true =>
    obtain ⟨stream', hstream', hcontent'⟩ := hcontent'
    cases hhash : report.checkHash with
    | false =>
      have hnone : before.contentDigest = none := by simpa [hhash] using hcontents
      simp [hcontent', hnone]
    | true =>
      obtain ⟨stream, hstream, hsome⟩ : ∃ stream,
          report.tree.contentStream report.files = .ok stream ∧
          before.contentDigest = some (digest stream) := by simpa [hhash] using hcontents
      simp [hcontent', hsome, hstream, hstream']

/-- The verdict on the record of a run is that the run is still good. -/
theorem verdictOf_record_iff {saved : RunRecord} (hsaved : report.record digest = .ok saved)
    (hdigest : digest (Path.stream files) = digest (Path.stream report.files) →
      Path.stream files = Path.stream report.files) :
    CacheStore.verdictOf digest t files checkHash fingerprint (some saved) = .ok .unchanged ↔
      report.StillGood digest t files checkHash fingerprint := by
  obtain ⟨-, hfingerprint, hsucceeded, hcontents⟩ := CacheStore.recordOf_spec hsaved
  rw [CacheStore.verdictOf_eq_unchanged_iff, hfingerprint]
  constructor
  · rintro ⟨hsuccess, hsame, s, hs, hfiles, hchanged⟩
    obtain ⟨before, hbefore, hfiles', hmtime, hcontent⟩ := hcontents hsuccess
    obtain ⟨hnoLater, hsameContents⟩ :=
      (changedSince_eq_false_iff hs hbefore hmtime hcontent).mp hchanged
    have hnow : t.Observable files checkHash := FileTree.exists_snapshot_iff.mp ⟨s, hs⟩
    have hthen : report.tree.Observable report.files report.checkHash :=
      FileTree.exists_snapshot_iff.mp ⟨before, hbefore⟩
    -- The record holds only the digest of the paths.
    have hstreams : Path.stream files = Path.stream report.files := by
      refine hdigest ?_
      rw [← (FileTree.snapshot_eq_ok_some_iff.mp hs).1, hfiles, hfiles',
        (FileTree.snapshot_eq_ok_some_iff.mp hbefore).1]
    exact ⟨(hsucceeded.mp hsuccess).1, hthen, hsame, ((samePaths_iff hnow hthen).mp hstreams).symm,
      hnow, hnoLater, hsameContents⟩
  · rintro ⟨hsuccess, hthen, hsame, hpaths, hnow, hnoLater, hsameContents⟩
    have hsavedSuccess := hsucceeded.mpr ⟨hsuccess, FileTree.exists_snapshot_iff.mpr hthen⟩
    obtain ⟨before, hbefore, hfiles', hmtime, hcontent⟩ := hcontents hsavedSuccess
    obtain ⟨s, hs⟩ : ∃ s, t.snapshot digest files checkHash = .ok (some s) :=
      FileTree.exists_snapshot_iff.mpr hnow
    refine ⟨hsavedSuccess, hsame, s, hs, ?_,
      (changedSince_eq_false_iff hs hbefore hmtime hcontent).mpr ⟨hnoLater, hsameContents⟩⟩
    rw [hfiles', (FileTree.snapshot_eq_ok_some_iff.mp hs).1,
      (FileTree.snapshot_eq_ok_some_iff.mp hbefore).1, (samePaths_iff hnow hthen).mpr hpaths.symm]

end CacheReport

/-! ### Calls -/

/-- A call of the cache, or a change of the files by somebody else. -/
inductive CacheCall where
  | edit (t : FileTree)
  | report (name : String) (files : List Path) (succeeded checkHash : Bool) (fingerprint : String)
  | consult (name : String) (files : List Path) (checkHash : Bool) (fingerprint : String)

/-- The name and the paths of a call, of which digests are taken. -/
def CacheCall.hashed : CacheCall → List (List UInt8)
  | .edit _ => []
  | .report name files .. | .consult name files .. => [Text.utf8 name, Path.stream files]

/-- Everything of which digests are taken in some calls. -/
def CacheCall.hashedIn (calls : List CacheCall) : Set (List UInt8) :=
  {stream | ∃ call ∈ calls, stream ∈ call.hashed}

theorem CacheCall.mem_hashedIn_cons {call : CacheCall} {calls : List CacheCall}
    {stream : List UInt8} :
    stream ∈ hashedIn (call :: calls) ↔ stream ∈ call.hashed ∨ stream ∈ hashedIn calls := by
  simp [hashedIn]

/-- The linter that a call is about. -/
def CacheCall.name? : CacheCall → Option String
  | .edit _ => none
  | .report name .. | .consult name .. => some name

/-- A cache with the files around it, and the runs it was told of, the last first. -/
structure CacheHistory where
  tree : FileTree
  store : CacheStore
  reports : List CacheReport

namespace CacheHistory

variable (digest : Digest)

/-- What a call does. -/
def step (h : CacheHistory) : CacheCall → CacheHistory
  | .edit t => { h with tree := t }
  | .report name files succeeded checkHash fingerprint =>
    let reports := ⟨h.tree, name, files, succeeded, checkHash, fingerprint⟩ :: h.reports
    match h.store.recordRun digest h.tree name files succeeded checkHash fingerprint with
    | .ok (store, tree) => { tree, store, reports }
    | .error _ => { h with reports }
  | .consult .. => h

/-- What calls do one after the other. -/
def run (h : CacheHistory) (calls : List CacheCall) : CacheHistory := calls.foldl (step digest) h

/-- A call that is as it should be: a change of files leaves the entries of the store alone, and the
record of a report can be saved. -/
def Allows (h : CacheHistory) : CacheCall → Prop
  | .edit t => h.store.SameEntries digest h.tree t
  | .report name files succeeded checkHash fingerprint => ∀ saved,
    CacheStore.recordOf digest h.tree name files succeeded checkHash fingerprint = .ok saved →
      h.store.Accepts digest h.tree saved
  | .consult .. => True

/-- Calls that are as they should be, each where it comes. -/
def Orderly : CacheHistory → List CacheCall → Prop
  | _, [] => True
  | h, call :: calls => h.Allows digest call ∧ Orderly (h.step digest call) calls

/-- Nothing was reported, and nothing is stored. -/
def IsFresh (h : CacheHistory) : Prop := h.reports = [] ∧ h.store.Vacant digest h.tree

/-- The records of the reports that were not refused, the last first. -/
def records (h : CacheHistory) : List RunRecord :=
  h.reports.filterMap fun report => (report.record digest).toOption

/-- A store that agrees with the reports. -/
def IsFaithful (h : CacheHistory) : Prop := h.store.Keeps digest h.tree (h.records digest)

/-- The last report on a linter. -/
def last (h : CacheHistory) (name : String) : Option CacheReport := h.reports.find? (·.name == name)

/-- The last report on a linter that was not refused. -/
def lastKept (h : CacheHistory) (name : String) : Option CacheReport :=
  h.reports.find? fun report => report.name == name && (report.record digest).isOk

variable {digest : Digest} {h : CacheHistory} {name : String}

/-! ### What a report does -/

section

variable {files : List Path} {succeeded checkHash : Bool} {fingerprint : String}

/-- A report that is not refused is saved. -/
theorem step_report_of_ok {saved : RunRecord}
    (hrecord : CacheReport.record digest ⟨h.tree, name, files, succeeded, checkHash, fingerprint⟩ =
      .ok saved) :
    h.step digest (.report name files succeeded checkHash fingerprint) =
      { tree := (h.store.save digest h.tree saved).2
        store := (h.store.save digest h.tree saved).1
        reports := ⟨h.tree, name, files, succeeded, checkHash, fingerprint⟩ :: h.reports } := by
  rw [CacheReport.record] at hrecord
  simp only [step, CacheStore.recordRun, hrecord]
  rfl

/-- A report that is refused leaves the files and the store as they are. -/
theorem step_report_of_error {e : FileTree.PathError}
    (hrecord : CacheReport.record digest ⟨h.tree, name, files, succeeded, checkHash, fingerprint⟩ =
      .error e) :
    h.step digest (.report name files succeeded checkHash fingerprint) =
      { h with
        reports := ⟨h.tree, name, files, succeeded, checkHash, fingerprint⟩ :: h.reports } := by
  rw [CacheReport.record] at hrecord
  simp only [step, CacheStore.recordRun, hrecord]
  rfl

/-- Every report is remembered as one. -/
theorem reports_step_report :
    (h.step digest (.report name files succeeded checkHash fingerprint)).reports =
      ⟨h.tree, name, files, succeeded, checkHash, fingerprint⟩ :: h.reports := by
  cases hrecord : CacheReport.record digest
    ⟨h.tree, name, files, succeeded, checkHash, fingerprint⟩ with
  | ok saved => rw [step_report_of_ok hrecord]
  | error e => rw [step_report_of_error hrecord]

end

theorem records_cons_of_ok {tree : FileTree} {store : CacheStore} {report : CacheReport}
    {reports : List CacheReport} {saved : RunRecord} (hsaved : report.record digest = .ok saved) :
    records digest ⟨tree, store, report :: reports⟩ =
      saved :: records digest ⟨tree, store, reports⟩ := by
  simp [records, hsaved, Except.toOption]

theorem records_cons_of_error {tree : FileTree} {store : CacheStore} {report : CacheReport}
    {reports : List CacheReport} {e : FileTree.PathError}
    (hrefused : report.record digest = .error e) :
    records digest ⟨tree, store, report :: reports⟩ = records digest ⟨tree, store, reports⟩ := by
  simp [records, hrefused, Except.toOption]

/-! ### What calls preserve -/

theorem isFaithful_of_isFresh (hfresh : h.IsFresh digest) : h.IsFaithful digest := by
  obtain ⟨hreports, hvacant⟩ := hfresh
  have hrecords : h.records digest = [] := by simp [records, hreports]
  unfold IsFaithful
  rw [hrecords]
  exact CacheStore.keeps_of_vacant hvacant

/-- A call keeps a store faithful. -/
theorem isFaithful_step {call : CacheCall} (hfaithful : h.IsFaithful digest)
    (hallows : h.Allows digest call) : (h.step digest call).IsFaithful digest := by
  cases call with
  | edit t => exact CacheStore.keeps_of_sameEntries hfaithful hallows
  | report name files succeeded checkHash fingerprint =>
    cases hrecord : CacheReport.record digest
      ⟨h.tree, name, files, succeeded, checkHash, fingerprint⟩ with
    | ok saved =>
      rw [step_report_of_ok hrecord, IsFaithful, records_cons_of_ok hrecord]
      exact CacheStore.keeps_save hfaithful (hallows saved hrecord)
    | error e =>
      -- Nothing was saved, and the report counts for no record.
      rw [step_report_of_error hrecord, IsFaithful, records_cons_of_error hrecord]
      exact hfaithful
  | consult => exact hfaithful

/-- Calls keep a store faithful. -/
theorem isFaithful_run {calls : List CacheCall} (hfaithful : h.IsFaithful digest)
    (horderly : h.Orderly digest calls) : (h.run digest calls).IsFaithful digest := by
  induction calls generalizing h with
  | nil => exact hfaithful
  | cons call calls ih =>
    obtain ⟨hallows, horderly⟩ := horderly
    exact ih (isFaithful_step hfaithful hallows) horderly

/-- A report after a call was there before, or is of a name and of paths of the call. -/
theorem mem_reports_step {call : CacheCall} {report : CacheReport}
    (hreport : report ∈ (h.step digest call).reports) :
    report ∈ h.reports ∨
      (Text.utf8 report.name ∈ call.hashed ∧ Path.stream report.files ∈ call.hashed) := by
  cases call with
  | edit t => exact .inl hreport
  | report name files succeeded checkHash fingerprint =>
    rw [reports_step_report] at hreport
    rcases List.mem_cons.mp hreport with rfl | hreport
    · exact .inr (by simp [CacheCall.hashed])
    · exact .inl hreport
  | consult => exact .inl hreport

/-- A report after calls was there before, or is of a name and of paths in them. -/
theorem mem_reports_run {calls : List CacheCall} {report : CacheReport}
    (hreport : report ∈ (h.run digest calls).reports) :
    report ∈ h.reports ∨ (Text.utf8 report.name ∈ CacheCall.hashedIn calls ∧
      Path.stream report.files ∈ CacheCall.hashedIn calls) := by
  induction calls generalizing h with
  | nil => exact .inl hreport
  | cons call calls ih =>
    simp only [CacheCall.mem_hashedIn_cons]
    rcases ih hreport with hreport | ⟨hname, hfiles⟩
    · rcases mem_reports_step hreport with hreport | ⟨hname, hfiles⟩
      · exact .inl hreport
      · exact .inr ⟨.inl hname, .inl hfiles⟩
    · exact .inr ⟨.inr hname, .inr hfiles⟩

/-! ### The record that counts -/

theorem mem_records_iff {saved : RunRecord} :
    saved ∈ h.records digest ↔ ∃ report ∈ h.reports, report.record digest = .ok saved := by
  have htoOption : ∀ report : CacheReport,
      (report.record digest).toOption = some saved ↔ report.record digest = .ok saved := by
    intro report
    cases report.record digest <;> simp [Except.toOption]
  simp only [records, List.mem_filterMap, htoOption]

/-- The last record of a linter is that of its last report that was not refused. -/
theorem find?_records (saved : RunRecord) :
    (h.records digest).find? (·.name == name) = some saved ↔
      ∃ report, h.lastKept digest name = some report ∧ report.record digest = .ok saved := by
  obtain ⟨tree, store, reports⟩ := h
  unfold lastKept
  induction reports with
  | nil => simp [records]
  | cons report reports ih =>
    simp only at ih ⊢
    cases hrecord : report.record digest with
    | error e =>
      -- A refused report has no record, and is none that was kept.
      rw [records_cons_of_error hrecord, ih,
        List.find?_cons_of_neg (by simp [hrecord, Except.isOk, Except.toBool])]
    | ok r =>
      obtain ⟨hname, -⟩ := CacheStore.recordOf_spec hrecord
      rw [records_cons_of_ok hrecord]
      by_cases hsame : report.name = name
      · rw [List.find?_cons_of_pos (by simp [hname, hsame]),
          List.find?_cons_of_pos (by simp [hsame, hrecord, Except.isOk, Except.toBool])]
        simp [hrecord]
      · rw [List.find?_cons_of_neg (by simp [hname, hsame]), ih,
          List.find?_cons_of_neg (by simp [hsame])]

/-- If the last report of a linter was not refused, it is the one that counts. -/
theorem lastKept_eq_last (hkept : ∀ report, h.last name = some report → ¬ report.IsRefused digest) :
    h.lastKept digest name = h.last name := by
  obtain ⟨tree, store, reports⟩ := h
  unfold last lastKept at *
  induction reports with
  | nil => rfl
  | cons report reports ih =>
    simp only at hkept ih ⊢
    by_cases hsame : report.name = name
    · rw [List.find?_cons_of_pos (by simp [hsame])] at hkept
      have hok : (report.record digest).isOk := by
        simpa [CacheReport.IsRefused] using hkept report rfl
      rw [List.find?_cons_of_pos (by simp [hsame, hok]), List.find?_cons_of_pos (by simp [hsame])]
    · rw [List.find?_cons_of_neg (by simp [hsame])] at hkept
      rw [List.find?_cons_of_neg (by simp [hsame]), List.find?_cons_of_neg (by simp [hsame])]
      exact ih hkept

/-- Calls about other linters change nothing about what counts for a linter. -/
theorem last_step_of_ne {call : CacheCall} (hother : call.name? ≠ some name) :
    (h.step digest call).last name = h.last name ∧
      (h.step digest call).lastKept digest name = h.lastKept digest name := by
  cases call with
  | edit t => exact ⟨rfl, rfl⟩
  | report name' files succeeded checkHash fingerprint =>
    have hne : name' ≠ name := fun heq => hother (congrArg some heq)
    unfold last lastKept
    rw [reports_step_report, List.find?_cons_of_neg (by simp [hne]),
      List.find?_cons_of_neg (by simp [hne])]
    exact ⟨rfl, rfl⟩
  | consult => exact ⟨rfl, rfl⟩

/-! ### Answers -/

section

variable {start : CacheHistory} {calls : List CacheCall} {files : List Path} {checkHash : Bool}
  {fingerprint : String}

/-- Nothing but the calls can have brought about a report. -/
theorem mem_hashedIn_of_mem_reports (hfresh : start.IsFresh digest)
    (hrun : start.run digest calls = h) {report : CacheReport} (hreport : report ∈ h.reports)
    (call : CacheCall) : Text.utf8 report.name ∈ CacheCall.hashedIn (call :: calls) ∧
      Path.stream report.files ∈ CacheCall.hashedIn (call :: calls) := by
  rw [← hrun] at hreport
  rcases mem_reports_run hreport with hreport | ⟨hname, hfiles⟩
  · rw [hfresh.1] at hreport
    exact absurd hreport List.not_mem_nil
  · exact ⟨CacheCall.mem_hashedIn_cons.mpr (.inr hname),
      CacheCall.mem_hashedIn_cons.mpr (.inr hfiles)⟩

/-- A linter need not run exactly if the last run that counts is still good. -/
theorem spares_iff_lastKept (hfresh : start.IsFresh digest) (horderly : start.Orderly digest calls)
    (hdigest : Set.InjOn digest
      (CacheCall.hashedIn (.consult name files checkHash fingerprint :: calls)))
    (hrun : start.run digest calls = h) :
    h.store.Spares digest h.tree name files checkHash fingerprint ↔
      ∃ report, h.lastKept digest name = some report ∧
        report.StillGood digest h.tree files checkHash fingerprint := by
  have hfaithful : h.IsFaithful digest :=
    hrun ▸ isFaithful_run (isFaithful_of_isFresh hfresh) horderly
  have hreported := fun report (hreport : report ∈ h.reports) =>
    mem_hashedIn_of_mem_reports hfresh hrun hreport (.consult name files checkHash fingerprint)
  -- The store is asked by digests of names, so the record could be that of another linter.
  have hdistinct : ∀ r ∈ h.records digest,
      digest (Text.utf8 r.name) = digest (Text.utf8 name) → r.name = name := by
    intro r hr heq
    obtain ⟨report, hreport, hsaved⟩ := mem_records_iff.mp hr
    obtain ⟨hname, -⟩ := CacheStore.recordOf_spec hsaved
    have hhashed := (hreported report hreport).1
    rw [← hname] at hhashed
    exact Text.utf8_injective
      (hdigest hhashed (CacheCall.mem_hashedIn_cons.mpr (.inl List.mem_cons_self)) heq)
  -- Records hold digests of paths, so a verdict could take other paths for those of the run.
  have hverdict : ∀ report ∈ h.reports, ∀ saved, report.record digest = .ok saved →
      (CacheStore.verdictOf digest h.tree files checkHash fingerprint (some saved) =
          .ok .unchanged ↔
        report.StillGood digest h.tree files checkHash fingerprint) := by
    intro report hreport saved hsaved
    have hasked : Path.stream files ∈
        CacheCall.hashedIn (.consult name files checkHash fingerprint :: calls) :=
      CacheCall.mem_hashedIn_cons.mpr (.inl (by simp [CacheCall.hashed]))
    exact CacheReport.verdictOf_record_iff hsaved (hdigest hasked (hreported report hreport).2)
  have hmem : ∀ {report}, h.lastKept digest name = some report → report ∈ h.reports :=
    fun hlast => List.mem_of_find?_eq_some hlast
  simp only [CacheStore.spares_iff, CacheStore.load_eq_ok_some_iff hfaithful hdistinct,
    find?_records]
  constructor
  · rintro ⟨saved, ⟨report, hlast, hsaved⟩, hunchanged⟩
    exact ⟨report, hlast, (hverdict report (hmem hlast) saved hsaved).mp hunchanged⟩
  · rintro ⟨report, hlast, hgood⟩
    obtain ⟨saved, hsaved⟩ := CacheReport.record_of_observed hgood.observed
    exact ⟨saved, ⟨report, hlast, hsaved⟩, (hverdict report (hmem hlast) saved hsaved).mpr hgood⟩

/-- After any calls a linter need not run exactly if the last run that counts is still good. This is
the last run that was reported, and so the answer the right one, unless two things come together:
the last report was refused, and an earlier run is still good. Calls about other linters do not
matter. -/
theorem spares_exact (hfresh : start.IsFresh digest) (horderly : start.Orderly digest calls)
    (hdigest : Set.InjOn digest
      (CacheCall.hashedIn (.consult name files checkHash fingerprint :: calls)))
    (hrun : start.run digest calls = h) :
    (h.store.Spares digest h.tree name files checkHash fingerprint ↔
      ∃ report, h.lastKept digest name = some report ∧
        report.StillGood digest h.tree files checkHash fingerprint) ∧
    ((h.store.Spares digest h.tree name files checkHash fingerprint ↔
        ∃ report, h.last name = some report ∧
          report.StillGood digest h.tree files checkHash fingerprint) ↔
      ¬ ((∃ report, h.last name = some report ∧ report.IsRefused digest) ∧
        ∃ report, h.lastKept digest name = some report ∧
          report.StillGood digest h.tree files checkHash fingerprint)) ∧
    ∀ call : CacheCall, call.name? ≠ some name →
      (h.step digest call).last name = h.last name ∧
        (h.step digest call).lastKept digest name = h.lastKept digest name := by
  have hspares := spares_iff_lastKept hfresh horderly hdigest hrun
  refine ⟨hspares, ?_, fun call hother => last_step_of_ne hother⟩
  rw [hspares]
  -- A refused report is never still good, and one that is not refused is the one that counts.
  by_cases hrefused : ∃ report, h.last name = some report ∧ report.IsRefused digest
  · have hnot : ¬ ∃ report, h.last name = some report ∧
        report.StillGood digest h.tree files checkHash fingerprint := by
      rintro ⟨report, hlast, hgood⟩
      obtain ⟨_, hlast', hrefused⟩ := hrefused
      obtain rfl := Option.some.inj (hlast.symm.trans hlast')
      exact hgood.not_isRefused hrefused
    simp only [hnot, iff_false, hrefused, true_and]
  · have hkept : h.lastKept digest name = h.last name :=
      lastKept_eq_last fun report hlast hreport => hrefused ⟨report, hlast, hreport⟩
    simp only [hkept, hrefused, false_and, not_false_eq_true]

/-- A success is reported to an empty directory of entries, and the linter need not run again. -/
theorem spares_exact_entry_file :
    ∃ (start : CacheHistory) (calls : List CacheCall) (files : List Path),
      start.store = .directory ⟨.relative, ["cache"]⟩ ∧ start.IsFresh Sha256.hex ∧
      start.Orderly Sha256.hex calls ∧
      Set.InjOn Sha256.hex (CacheCall.hashedIn (.consult "n" files false "" :: calls)) ∧
      (start.run Sha256.hex calls).store.Spares Sha256.hex
        (start.run Sha256.hex calls).tree "n" files false "" := by
  let tree : FileTree :=
    { root := .dir 0 [("a", .file ⟨[120], 1, false⟩), ("cache", .dir 0 [])], cwd := [], clock := 2 }
  let cache : Path := ⟨.relative, ["cache"]⟩
  let start : CacheHistory := ⟨tree, .directory cache, []⟩
  let source : Path := ⟨.relative, ["a"]⟩
  let first : CacheReport := ⟨tree, "n", [source], true, false, ""⟩
  -- the digests
  have hname : CacheStore.entryName Sha256.hex "n" =
      "1b16b1df538ba12dc3f97edbb85caa7050d46c148134290feba80f8236c83db9.json" := by decide +kernel
  have hne : Sha256.hex (Text.utf8 "n") ≠ Sha256.hex (Path.stream [source]) := by decide +kernel
  have hfits : cache.Fits (CacheStore.entryName Sha256.hex "n") := by
    rw [hname]
    decide +kernel
  generalize Sha256.hex = digest at hfits hne ⊢
  -- the store
  have hdir : tree.HasDir cache ["cache"] :=
    .down rfl (by decide) (by decide) (by decide) rfl (.here rfl)
  have hmade : tree.makeDirs cache = (tree, .ok ()) :=
    FileTree.makeDirs_of_hasDir hdir (by decide) (by decide)
  have hfresh : start.IsFresh digest := ⟨rfl, CacheStore.vacant_of_empty hdir rfl hmade⟩
  -- the files
  have hstat : tree.stat source = .ok (.file ⟨[120], 1, false⟩) :=
    FileTree.stat_of_lookup_file "a" rfl (by decide) rfl
  have hthen : tree.mtime source = .ok 1 := FileTree.mtime_of_stat hstat
  have hmtimes : tree.mtimes [source] = .ok [1] := Except.mapM_eq_ok_iff.mpr (.cons hthen .nil)
  have hsaved : first.record digest =
      .ok ⟨"n", "", digest (Path.stream [source]), 1, none, true⟩ := by
    simp only [first, CacheReport.record, CacheStore.recordOf, if_true, FileTree.snapshot,
      FileTree.snapshotOrError, hmtimes]
    rfl
  have hdigest : Set.InjOn digest (CacheCall.hashedIn
      [.consult "n" [source] false "", .report "n" [source] true false ""]) := by
    refine Set.InjOn.mono ?_ (Set.injOn_pair.mpr fun heq => absurd heq hne)
    intro stream hstream
    simpa [CacheCall.hashedIn, CacheCall.hashed] using hstream
  -- the report
  have hshort : RunRecord.IsShort ⟨"n", "", digest (Path.stream [source]), 1, none, true⟩ := by
    show (Nat.toDigits 10 1).length ≤ Text.numeralLimit
    decide
  have hkeeps := isFaithful_of_isFresh hfresh
  have horderly : start.Orderly digest [.report "n" [source] true false ""] := by
    refine ⟨fun saved hrecordOf => ?_, trivial⟩
    obtain rfl := Except.ok.inj (hsaved.symm.trans hrecordOf)
    exact CacheStore.accepts_of_hasDir hkeeps hdir hfits hshort
  obtain ⟨data, -, hwrite⟩ := FileTree.write_eq_ok_of_isFree hdir hfits (.inl (hfresh.2 "n").1)
    (Text.utf8 (RunRecord.text ⟨"n", "", digest (Path.stream [source]), 1, none, true⟩))
  have hrun := step_report_of_ok (h := start) hsaved
  have hafter : (start.run digest [.report "n" [source] true false ""]).tree =
      { tree with
        root := tree.root.insert 2 ["cache", CacheStore.entryName digest "n"] (.file data)
        clock := 3 } := by
    show (start.step digest (.report "n" [source] true false "")).tree = _
    rw [hrun]
    simp only [start, CacheStore.save, CacheStore.writeEntry, hmade, CacheStore.entryPath_eq,
      hwrite]
    rfl
  have hmtime : ∀ name, ({ tree with
      root := tree.root.insert 2 ["cache", name] (.file data),
      clock := 3 } : FileTree).mtime source = .ok 1 := by
    intro name
    have hstat : FileTree.stat { tree with
        root := tree.root.insert 2 ["cache", name] (.file data),
        clock := 3 } source = .ok (.file ⟨[120], 1, false⟩) :=
      FileTree.stat_of_lookup_file "a" rfl (by decide) rfl
    exact FileTree.mtime_of_stat hstat
  have hnow := hmtime (CacheStore.entryName digest "n")
  obtain ⟨hspares, -⟩ := spares_exact hfresh horderly hdigest rfl
  refine ⟨start, _, [source], rfl, hfresh, horderly, hdigest, hspares.mpr ⟨first, ?_, ?_⟩⟩
  · show (start.step digest (.report "n" [source] true false "")).lastKept digest "n" = _
    rw [hrun]
    exact List.find?_cons_of_pos (by rw [hsaved]; rfl)
  · rw [hafter]
    exact ⟨rfl, FileTree.observable_singleton hthen, rfl, rfl, FileTree.observable_singleton hnow,
      fun _ => ⟨1, 1, FileTree.latestTime_singleton hthen, FileTree.latestTime_singleton hnow,
        le_refl 1⟩, by simp⟩

/-- A report is refused after a success was kept. Whatever the digest, the linter need not run,
although its last run was not a success. -/
theorem spares_after_refused :
    ∃ (start : CacheHistory) (calls : List CacheCall) (name : String) (files : List Path),
      ∀ digest : Digest, start.IsFresh digest ∧ start.Orderly digest calls ∧
        (start.run digest calls).store.Spares digest (start.run digest calls).tree name files false
          "" ∧
        ¬ ∃ report, (start.run digest calls).last name = some report ∧
          report.StillGood digest (start.run digest calls).tree files false "" := by
  let tree : FileTree := { root := .dir 0 [("a", .file ⟨[120], 1, false⟩)], cwd := [], clock := 2 }
  let start : CacheHistory := ⟨tree, .memory [], []⟩
  let kept : Path := ⟨.relative, ["a"]⟩
  let refused : Path := ⟨.relative, ["a\x00b"]⟩
  refine ⟨start, [.report "n" [kept] true false "", .report "n" [refused] true false ""], "n",
    [kept], fun digest => ?_⟩
  let first : CacheReport := ⟨tree, "n", [kept], true, false, ""⟩
  have hstat : tree.stat kept = .ok (.file ⟨[120], 1, false⟩) :=
    FileTree.stat_of_lookup_file "a" rfl (by decide) rfl
  have hmtime : tree.mtime kept = .ok 1 := FileTree.mtime_of_stat hstat
  have hobservable := FileTree.observable_singleton hmtime
  have hlatest := FileTree.latestTime_singleton hmtime
  have hgood : first.StillGood digest tree [kept] false "" :=
    ⟨rfl, hobservable, rfl, rfl, hobservable, fun _ => ⟨1, 1, hlatest, hlatest, le_refl 1⟩, by simp⟩
  obtain ⟨saved, hsaved⟩ : ∃ saved, first.record digest = .ok saved :=
    CacheReport.record_of_observed hobservable
  have hname : saved.name = "n" := (CacheStore.recordOf_spec hsaved).1
  -- The record of the first report is still there after the second.
  let second : CacheReport := ⟨tree, "n", [refused], true, false, ""⟩
  have hrefused : second.record digest = .error .nullInPath := rfl
  let told : CacheHistory := ⟨tree, .memory (Keyed.put [] saved.name saved), [first]⟩
  have htold : start.step digest (.report "n" [kept] true false "") = told :=
    step_report_of_ok hsaved
  have hrun : start.run digest
      [.report "n" [kept] true false "", .report "n" [refused] true false ""] =
        { told with reports := [second, first] } := by
    rw [← step_report_of_error hrefused, ← htold]
    rfl
  rw [hrun]
  refine ⟨⟨rfl, rfl⟩, ⟨fun _ _ => trivial, fun _ _ => ?_, trivial⟩, ?_, ?_⟩
  · rw [htold]
    trivial
  · refine CacheStore.spares_iff.mpr ⟨saved, ?_, ?_⟩
    · have hload := CacheStore.load_memory_save_self digest tree tree [] saved
      rwa [hname] at hload
    · exact (CacheReport.verdictOf_record_iff hsaved fun _ => rfl).mpr hgood
  · rintro ⟨report, hlast, hreport⟩
    obtain rfl : second = report := Option.some.inj hlast
    exact hreport.not_isRefused (CacheReport.isRefused_iff.mpr ⟨rfl, rfl⟩)

end

end CacheHistory

end LinterSuite
