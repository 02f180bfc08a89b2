import LinterSuite.Run.Job

/-!
# Slots

Every target of a run gets a slot. Either nothing has to be run for it, and its outcome is known at
once, or a job is made of it. Outcomes are reported slot by slot.

## Main definitions

* `Slot`: a linter that need not be run, or a job with how far it has come
* `Slot.result`: what a slot has come to
* `Slot.collect`: the outcomes that can be reported
* `FileTree.slot`: what is to be done about a target

## Main results

* `Slot.collect_idle`: where nothing is run, all outcomes are known beforehand
-/

namespace LinterSuite

/-- A linter that need not be run, or a job with how far it has come. -/
inductive Slot where
  | idle (outcome : Outcome)
  | job (job : Job) (progress : JobState)

namespace Slot

/-- A linter that is run. -/
def isJob : Slot → Bool
  | job .. => true
  | idle _ => false

/-- What a slot has come to. A job that was not brought to an end counts as interrupted. -/
def result : Slot → Except RunFailure Outcome
  | idle o => .ok o
  | job _ (.ended result) => result
  | job .. => .error .interrupted

/-- The outcomes of some slots up to the first that did not end well, and how that one ended. -/
def collect : List Slot → List Outcome × Option RunFailure
  | [] => ([], none)
  | slot :: rest =>
    match slot.result with
    | .error e => ([], some e)
    | .ok o =>
      let (os, failure) := collect rest
      (o :: os, failure)

/-- How many jobs come before the first slot that did not end well, if the user interrupted it. -/
def interruption? : List Slot → Option Nat
  | [] => none
  | idle _ :: rest => interruption? rest
  | job _ (.ended (.ok _)) :: rest => (interruption? rest).map (· + 1)
  | job _ (.ended (.error .interrupted)) :: _ => some 0
  | job .. :: _ => none

theorem collect_idle (outcomes : List Outcome) :
    collect (outcomes.map idle) = (outcomes, none) := by
  induction outcomes with
  | nil => rfl
  | cons o os ih => simp [collect, result, ih]

end Slot

/-- What is noted about a verdict. -/
def Verdict.notes (linter : String) : Verdict → List Event
  | noSuccess => []
  | configurationChanged => [.noted .cache s!"{linter}: configuration changed"]
  | filesChanged => [.noted .cache s!"{linter}: file set changed"]
  | inputsChanged => [.noted .cache s!"{linter}: inputs changed since last successful run"]
  | unchanged => [.noted .run s!"{linter}: inputs unchanged since last successful run"]

/-- What is let known about a selection. -/
def Selection.events (target : Target) (s : Selection) : List Event :=
  s.checkouts.map (fun p => .noted .selection s!"skipping nested checkout {p}") ++
    [.noted .selection
      s!"{target.name}: {s.files.length} file(s) selected under {target.workDir}",
      .selected target.name s.files.length]

/-- What is to be done about a target, and what is let known meanwhile. -/
def FileTree.slot (digest : Digest) (t : FileTree) (store : CacheStore) (skipped : List Path)
    (globalExcludes : List String) (target : Target) : List Event × Except RunFailure Slot :=
  match t.select skipped target.settings target.workDir globalExcludes with
  | .error e => ([], .error e.toRunFailure)
  | .ok selection =>
    let seen := selection.events target
    let job : Job := ⟨target, selection.files⟩
    if selection.files.isEmpty then
      (seen ++ [.noted .run s!"{target.name}: no files selected"],
        .ok (.idle (.idle target.name .skipped [])))
    else match store.verdict digest t target.name job.paths target.settings.checkHash
        target.fingerprint with
      | .error e => (seen, .error e.toRunFailure)
      | .ok verdict =>
        (seen ++ verdict.notes target.name,
          .ok (if verdict.mustRun then .job job .waiting
            else .idle (.idle target.name .cached selection.files)))

end LinterSuite
