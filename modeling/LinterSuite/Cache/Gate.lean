import LinterSuite.Cache.Store

/-!
# The cache gate

A linter need not run if its last run succeeded and nothing that went into it has changed. Changes
of files are seen by their times, or by their contents.

## Main definitions

* `Verdict`: whether a linter must run, and why
* `CacheStore.verdict`: the verdict on a linter and its files
* `CacheStore.recordRun`: remembering a run

## Main results

* `Verdict.mustRun_unchanged`: an unchanged linter need not run
-/

namespace LinterSuite

/-- Why a linter must run, or that it need not. -/
inductive Verdict where
  /-- No successful run is on record. -/
  | noSuccess
  | configurationChanged
  | filesChanged
  | inputsChanged
  | unchanged
  deriving DecidableEq, Repr

/-- The linter must run. -/
def Verdict.mustRun (v : Verdict) : Bool := v != .unchanged

@[simp] theorem Verdict.mustRun_unchanged : Verdict.mustRun .unchanged = false := rfl

/-- What keeps the cache from being consulted or written. -/
inductive CacheError where
  | entry (error : EntryError)
  | path (error : FileTree.PathError)
  deriving DecidableEq, Repr

/-- A snapshot that differs from a record in what is compared. -/
def Snapshot.changedSince (s : Snapshot) (checkHash : Bool) (r : RunRecord) : Bool :=
  if checkHash then s.contentDigest != r.contentDigest else r.latestMtime < s.latestMtime

namespace CacheStore

variable (digest : Digest)

/-- The verdict on a linter, given its record. -/
def verdictOf (t : FileTree) (files : List Path) (checkHash : Bool) (fingerprint : String)
    (record : Option RunRecord) : Except FileTree.PathError Verdict :=
  match record with
  | none => .ok .noSuccess
  | some r =>
    if !r.succeeded then .ok .noSuccess
    else if r.fingerprint != fingerprint then .ok .configurationChanged
    else do
      match ← t.snapshot digest files checkHash with
      | none => return .filesChanged
      | some s =>
        if s.filesDigest != r.filesDigest then return .filesChanged
        else if s.changedSince checkHash r then return .inputsChanged
        else return .unchanged

/-- The verdict on a linter with its files. -/
def verdict (t : FileTree) (store : CacheStore) (name : String) (files : List Path)
    (checkHash : Bool) (fingerprint : String) : Except CacheError Verdict := do
  let record ← (store.load digest t name).mapError .entry
  (verdictOf digest t files checkHash fingerprint record).mapError .path

/-- The record of a run. -/
def recordOf (t : FileTree) (name : String) (files : List Path) (succeeded checkHash : Bool)
    (fingerprint : String) : Except FileTree.PathError RunRecord := do
  if succeeded then
    match ← t.snapshot digest files checkHash with
    | some s =>
      return { name, fingerprint, filesDigest := s.filesDigest, latestMtime := s.latestMtime,
               contentDigest := s.contentDigest, succeeded := true }
    | none => return .failed name fingerprint
  else return .failed name fingerprint

/-- The store and the tree after a run was remembered. -/
def recordRun (t : FileTree) (store : CacheStore) (name : String) (files : List Path)
    (succeeded checkHash : Bool) (fingerprint : String) :
    Except FileTree.PathError (CacheStore × FileTree) := do
  return store.save digest t (← recordOf digest t name files succeeded checkHash fingerprint)

end CacheStore

end LinterSuite
