import LinterSuite.Proofs.Fallible
import LinterSuite.Run

/-!
# Targets of a configuration

A run starts only if every linter of its configuration is fit to be run. Then there is one target
for every linter, in order, and each works in a directory.

## Main definitions

* `FileTree.Aims`: a linter with the target that is made of it

## Main results

* `FileTree.aims_of_targetsOf`, `FileTree.targetsOf_of_aims`: there is one target for every linter
* `FileTree.prepare_eq_ok_iff`: what a run starts with
-/

namespace LinterSuite.FileTree

variable {digest : Digest} {homes : Homes} {t : FileTree} {root : Path}

/-- A linter with the target that is made of it. -/
structure Aims (digest : Digest) (homes : Homes) (t : FileTree) (root : Path) (s : LinterSettings)
    (target : Target) : Prop where
  settings : target.settings = s
  workDir : s.workDirFrom homes root = .ok target.workDir
  isDir : t.isDir target.workDir
  grammars : Grammar.compileAll s.formats = .ok target.grammars
  fingerprint : t.fingerprint digest s target.workDir = .ok target.fingerprint

theorem aims_of_target {s : LinterSettings} {target : Target}
    (h : t.target digest homes root s = .ok target) : t.Aims digest homes root s target := by
  unfold FileTree.target at h
  split at h
  · exact nomatch h
  · next grammars hgrammars =>
    split at h
    · exact nomatch h
    · next workDir hworkDir =>
      split at h
      · exact nomatch h
      · exact nomatch h
      · next hask =>
        split at h
        · exact nomatch h
        · next fingerprint hfingerprint =>
          obtain rfl := Except.ok.inj h
          refine ⟨rfl, hworkDir, ?_, hgrammars, hfingerprint⟩
          unfold ask at hask
          split at hask
          · exact nomatch hask
          · exact Except.ok.inj hask

/-- There is one target for every linter, in order. -/
theorem aims_of_targetsOf {linters : List LinterSettings} {targets : List Target}
    (h : t.targetsOf digest homes root linters = .ok targets) :
    List.Forall₂ (t.Aims digest homes root) linters targets := by
  induction linters generalizing targets with
  | nil =>
    obtain rfl := Except.ok.inj h
    exact .nil
  | cons s linters ih =>
    obtain ⟨target, htarget, h⟩ := Except.bind_eq_ok_iff.mp h
    obtain ⟨rest, hrest, h⟩ := Except.bind_eq_ok_iff.mp h
    obtain rfl := Except.ok.inj h
    exact .cons (aims_of_target htarget) (ih hrest)

/-- Targets have the names of their linters. -/
theorem names_of_aims {linters : List LinterSettings} {targets : List Target}
    (h : List.Forall₂ (t.Aims digest homes root) linters targets) :
    targets.map Target.name = linters.map (·.name) := by
  induction h with
  | nil => rfl
  | cons haims _ ih => rw [List.map_cons, List.map_cons, ih, Target.name, haims.settings]

/-- Every target works in a directory. -/
theorem isDir_of_aims {linters : List LinterSettings} {targets : List Target}
    (h : List.Forall₂ (t.Aims digest homes root) linters targets) :
    ∀ target ∈ targets, t.isDir target.workDir := by
  induction h with
  | nil => simp
  | cons haims _ ih => exact List.forall_mem_cons.mpr ⟨haims.isDir, ih⟩

theorem ask_isDir {p : Path} (h : t.isDir p) : t.ask isDir p = .ok true := by
  have hask : t.ask isDir p = .ok (t.isDir p) := by
    unfold isDir at h
    unfold ask
    split at h
    · next hstat => simp only [hstat]
    · exact nomatch h
  rw [hask, h]

/-- A linter is made into the target that it aims at. -/
theorem target_of_aims {s : LinterSettings} {target : Target}
    (h : t.Aims digest homes root s target) : t.target digest homes root s = .ok target := by
  obtain ⟨rfl, hworkDir, hisDir, hgrammars, hfingerprint⟩ := h
  simp only [FileTree.target, hgrammars, hworkDir, ask_isDir hisDir, hfingerprint]

theorem targetsOf_of_aims {linters : List LinterSettings} {targets : List Target}
    (h : List.Forall₂ (t.Aims digest homes root) linters targets) :
    t.targetsOf digest homes root linters = .ok targets := by
  induction h with
  | nil => rfl
  | cons haims _ ih =>
    rw [targetsOf, target_of_aims haims, ih]
    rfl

/-- A run starts with a target for every linter, a directory for the cache, and room for a job. -/
theorem prepare_eq_ok_iff {jobCount : Int} {c : Config} {targets : List Target}
    {cacheDir skipped : Path} :
    t.prepare digest homes jobCount c = .ok (targets, cacheDir, skipped) ↔
      List.Forall₂ (t.Aims digest homes c.root) c.linters targets ∧
        c.cachePath homes = .ok cacheDir ∧ t.realPath cacheDir = .ok skipped ∧ 0 < jobCount := by
  constructor
  · intro h
    obtain ⟨targets', htargets, h⟩ := Except.bind_eq_ok_iff.mp h
    obtain ⟨cacheDir', hcacheDir, h⟩ := Except.bind_eq_ok_iff.mp h
    obtain ⟨skipped', hskipped, h⟩ := Except.bind_eq_ok_iff.mp h
    split at h
    · exact nomatch h
    · next hjobs =>
      obtain ⟨rfl, rfl, rfl⟩ : targets' = targets ∧ cacheDir' = cacheDir ∧ skipped' = skipped := by
        simpa [pure, Except.pure] using h
      exact ⟨aims_of_targetsOf htargets, Except.mapError_eq_ok_iff.mp hcacheDir,
        Except.mapError_eq_ok_iff.mp hskipped, Int.not_le.mp hjobs⟩
  · rintro ⟨haims, hcacheDir, hskipped, hjobs⟩
    unfold prepare FileTree.targets
    rw [targetsOf_of_aims haims, hcacheDir]
    simp only [Except.mapError, bind, Except.bind, hskipped, if_neg (Int.not_le.mpr hjobs)]
    rfl

/-- What is known once a run starts: a target for every linter, and the directory of the cache. -/
theorem prepare_spec {jobCount : Int} {c : Config} {targets : List Target} {cacheDir skipped : Path}
    (h : t.prepare digest homes jobCount c = .ok (targets, cacheDir, skipped)) :
    List.Forall₂ (t.Aims digest homes c.root) c.linters targets ∧
      c.cachePath homes = .ok cacheDir ∧ t.realPath cacheDir = .ok skipped := by
  obtain ⟨haims, hcacheDir, hskipped, -⟩ := prepare_eq_ok_iff.mp h
  exact ⟨haims, hcacheDir, hskipped⟩

end LinterSuite.FileTree
