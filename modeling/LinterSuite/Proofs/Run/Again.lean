import LinterSuite.Proofs.Run.Calls
import LinterSuite.Proofs.Run.Resumption
import Mathlib.Data.List.Perm.Subperm

/-!
# Running again

A run that changes no file is made twice in a row, with a cache in a directory that is fit for it.
What becomes of a linter in the second run is decided by its outcome in the first. If it passed, or
was spared, it is spared with the same files; if it had no files, it is skipped again. If it did not
pass, its command is called again with the same arguments, and nothing else is called.

The first run has its outcomes unless a target is refused. Among the reasons is an entry of the
cache that cannot be read at all: one whose bytes are no text is not passed over, but ends every
run.

## Main definitions

* `Outcome.Again`: an outcome with the next one of the same linter
* `Outcome.repeated`: the calls that are made again
* `Target.Refusal`: what keeps a run from its outcomes
* `FileTree.KeepsCache`: a run with a cache in a directory that is fit for it
* `RunResult.Repeats`: what a run does after another one

## Main results

* `Pool.Accords.exists_refusal`: a run has its outcomes unless a target is refused
* `Pool.Accords.starts`: the outcomes of the first run decide on the slots of the second
* `FileTree.next_run_exact`: what the second of two runs does
* `FileTree.unreadable_entry_ends_runs`: an entry whose bytes are no text ends every run
-/

namespace LinterSuite

variable {σ : Type}

/-! ### What is called again -/

namespace Outcome

/-- An outcome with the next one of the same linter, if nothing changes in between. A linter that
passed or was spared is spared, and one without files is skipped. One that did not pass is run on
the same files. -/
def Again (o o' : Outcome) : Prop :=
  match o.status with
  | .ok | .cached => o' = .idle o.program .cached o.files
  | .skipped => o' = .idle o.program .skipped []
  | .failed | .error => o'.program = o.program ∧ o'.files = o.files ∧
      o'.status ≠ .skipped ∧ o'.status ≠ .cached

/-- The call of a linter that did not pass. -/
def callAgain? (target : Target) (o : Outcome) : Option RunCall :=
  if o.succeeded then none else some (Job.call ⟨target, o.files⟩)

/-- The calls of the linters that did not pass. -/
def repeated (targets : List Target) (outcomes : List Outcome) : List RunCall :=
  (targets.zip outcomes).filterMap fun pair => pair.2.callAgain? pair.1

theorem call?_next (target : Target) (o : Outcome) :
    (o.next target).call? = o.callAgain? target := by
  unfold next callAgain? succeeded
  cases o.status <;> rfl

/-- The calls of the linters that did not pass are those of the jobs of the next run. -/
theorem repeated_eq (targets : List Target) (outcomes : List Outcome) :
    repeated targets outcomes =
      (List.zipWith (fun target o => next target o) targets outcomes).filterMap Slot.call? := by
  rw [← List.map_uncurry_zip_eq_zipWith, List.filterMap_map]
  exact List.filterMap_congr fun pair _ => (call?_next pair.1 pair.2).symm

end Outcome

section

variable {a : Outset} {answers : RunCall → Except RunError RawOutput → Prop} {rs : List RunRecord}

/-- A linter that did not pass is one that was run. -/
theorem Slot.Accords.call?_of_not_succeeded {target : Target} {slot : Slot} {o : Outcome}
    (h : slot.Accords a answers rs target) (hresult : slot.result = .ok o)
    (hfailed : o.succeeded = false) : slot.call? = some (Job.call ⟨target, o.files⟩) := by
  cases slot with
  | idle o' =>
    obtain rfl : o' = o := Except.ok.inj hresult
    -- What is idle was skipped or spared, and counts as a success.
    obtain ⟨older, -, -, -, hfound⟩ := h.found
    cases hfound with
    | nothing | spared => exact nomatch hfailed
  | job j progress =>
    obtain rfl := h.target_eq
    have hprogress := h.progress j progress rfl
    cases progress with
    | ended ended =>
      obtain rfl : ended = .ok o := hresult
      obtain ⟨result, -, hended⟩ := hprogress
      rw [(Job.delivers_of_endIn hended).1.files]
      rfl
    | _ => exact nomatch hresult

theorem sublist_repeated {targets : List Target} {slots : List Slot} {outcomes : List Outcome}
    (hslots : List.Forall₂ (Slot.Accords a answers rs) targets slots)
    (hresults : List.Forall₂ (fun slot o => slot.result = .ok o) slots outcomes) :
    (Outcome.repeated targets outcomes).Sublist (slots.filterMap Slot.call?) := by
  induction hslots generalizing outcomes with
  | nil => exact List.nil_sublist _
  | @cons target slot targets slots haccords _ ih =>
    obtain ⟨o, outcomes, hresult, hothers, rfl⟩ := List.forall₂_cons_left_iff.mp hresults
    have hrest := ih hothers
    unfold Outcome.repeated at hrest ⊢
    rw [List.zip_cons_cons, List.filterMap_cons, List.filterMap_cons]
    cases hfailed : o.succeeded with
    | true =>
      -- A linter that passed adds nothing, though its slot may have a call.
      simp only [Outcome.callAgain?, hfailed, if_true]
      cases slot.call? with
      | none => exact hrest
      | some call => exact hrest.cons call
    | false =>
      simp only [Outcome.callAgain?, hfailed, Bool.false_eq_true, if_false,
        haccords.call?_of_not_succeeded hresult hfailed]
      exact hrest.cons_cons _

/-- What is called again was called in the run with these outcomes. -/
theorem Pool.Accords.repeated_subperm {p : Pool σ} {first : List Outcome}
    (h : p.Accords a answers rs) (hfirst : p.outcomes = .ok first) :
    (Outcome.repeated a.targets first).Subperm (p.slots.filterMap Slot.called?) := by
  have hdone := Pool.isDone_of_outcomes hfirst
  obtain ⟨-, hnil, hresults⟩ := Pool.forall₂_of_outcomes hfirst
  obtain ⟨looked, htargets, hslots⟩ := h.slots
  rw [hnil, List.append_nil] at htargets
  have hcalled : p.slots.filterMap Slot.called? = p.slots.filterMap Slot.call? :=
    List.filterMap_congr fun slot hslot => Slot.called?_of_rank (hdone.ended slot hslot)
  rw [htargets, hcalled]
  exact (sublist_repeated hslots hresults).subperm

end

/-! ### What keeps a run from its outcomes -/

/-- What keeps a run that is not interrupted from its outcomes: the files of a target cannot be
selected, the entry of its record cannot be read at all, or the result of its command has no
outcome. -/
inductive Target.Refusal (a : Outset) (answers : RunCall → Except RunError RawOutput → Prop)
    (target : Target) : RunFailure → Prop
  | unselected {e : SelectionError} (select : a.filesOf target = .error e) :
      Refusal a answers target e.toRunFailure
  | unreadable {older : List RunRecord} {e : EntryError}
      (others : ∀ r ∈ older, r.name ∈ a.names ∧ r.name ≠ target.name)
      (load : a.loadAfter older target.name = .error e) : Refusal a answers target (.entry e)
  | fatal {files : List String} {result : Except RunError RawOutput} {e : RunFailure}
      (select : a.filesOf target = .ok files) (answer : answers (Job.call ⟨target, files⟩) result)
      (ends : Job.endIn a.digest ⟨target, files⟩ a.tree result = .error e) :
      Refusal a answers target e

/-- There is a verdict on files that can be observed. -/
theorem CacheStore.exists_verdictOf {digest : Digest} {t : FileTree} {files : List Path}
    {checkHash : Bool} (h : t.Observable files checkHash) (fingerprint : String)
    (record : Option RunRecord) :
    ∃ v, verdictOf digest t files checkHash fingerprint record = .ok v := by
  obtain ⟨s, hs⟩ := FileTree.exists_snapshot_iff.mpr h
  unfold verdictOf
  split
  · exact ⟨_, rfl⟩
  · rw [hs]
    simp only [bind, Except.bind]
    split_ifs <;> exact ⟨_, rfl⟩

section

variable {a : Outset} {answers : RunCall → Except RunError RawOutput → Prop} {rs : List RunRecord}
  {p : Pool σ} {e : RunFailure}

/-- A target that cannot be looked at. -/
theorem Outset.IsSteady.refusal (hsteady : a.IsSteady) {target : Target}
    (htarget : target ∈ a.targets) (hothers : ∀ r ∈ rs, r.name ∈ a.names ∧ r.name ≠ target.name)
    (hreadable : ∀ files, a.filesOf target = .ok files →
      a.tree.Readable (Job.paths ⟨target, files⟩) target.settings.checkHash)
    (h : a.slotAfter rs target = .error e) : target.Refusal a answers e := by
  have hfound : target.Found a.digest (a.after rs).2 (a.after rs).1 a.skipped a.globalExcludes
      (.error e) := by
    rw [← h]
    exact FileTree.found_slot ..
  have hrs : ∀ r ∈ rs, r.name ∈ a.names := fun r hr => (hothers r hr).1
  have hfilesIn := hsteady.filesIn rs hrs target htarget
  cases hfound with
  | unselected select =>
    rw [Target.filesIn, select] at hfilesIn
    exact .unselected hfilesIn.symm
  | @unknown selection _ select _ verdict =>
    rw [Target.filesIn, select] at hfilesIn
    have hfiles : a.filesOf target = .ok selection.files := hfilesIn.symm
    -- The files can be observed, so it must be the entry.
    have hobservable := (hreadable selection.files hfiles).observable
    unfold CacheStore.verdict at verdict
    cases hload : (a.after rs).1.load a.digest (a.after rs).2 target.name with
    | error err =>
      rw [hload] at verdict
      obtain rfl := Except.error.inj verdict
      exact .unreadable hothers hload
    | ok record =>
      obtain ⟨v, hv⟩ : ∃ v, CacheStore.verdictOf a.digest a.tree
          (Job.paths ⟨target, selection.files⟩) target.settings.checkHash target.fingerprint
            record = .ok v := CacheStore.exists_verdictOf hobservable target.fingerprint record
      rw [← CacheStore.verdictOf_congr (hsteady.stat rs hrs target htarget _ hfiles)] at hv
      rw [hload] at verdict
      simp [Except.mapError, bind, Except.bind, hv] at verdict

/-- A run in which nothing is left to be done has its outcomes, unless it is refused. -/
theorem Pool.Accords.exists_refusal (h : p.Accords a answers rs) (hdone : p.IsDone)
    (hsteady : a.IsSteady) (hreadable : ∀ target ∈ a.targets, ∀ files,
      a.filesOf target = .ok files →
        a.tree.Readable (Job.paths ⟨target, files⟩) target.settings.checkHash)
    (houtcomes : p.outcomes = .error e) : ∃ target ∈ a.targets, target.Refusal a answers e := by
  rcases hdone.exists_of_outcomes houtcomes with hfailure | ⟨j, hslot⟩
  · obtain ⟨target, -, older, -, htarget, hothers, hslot⟩ := h.exists_refused hfailure
    exact ⟨target, htarget, hsteady.refusal htarget hothers (hreadable target htarget) hslot⟩
  · obtain ⟨place, here⟩ := List.getElem?_of_mem hslot
    obtain ⟨target, htarget, haccords⟩ := h.exists_slot here
    have hfiles := haccords.filesOf_eq hsteady h.mem_names htarget
    obtain rfl := haccords.target_eq
    obtain ⟨result, hanswer, hended⟩ := haccords.progress j _ rfl
    exact ⟨j.target, htarget, .fatal hfiles hanswer hended.symm⟩

end

/-! ### The second run -/

section

variable {a : Outset} {answers : RunCall → Except RunError RawOutput → Prop}
  {rs newer : List RunRecord} {target : Target} {slot : Slot} {o o' : Outcome}

/-- What the second run does about a linter is decided by its outcome in the first. -/
theorem Slot.Accords.start_eq (h : slot.Accords (a.resume rs) answers newer target)
    (hleft : o.Left a rs target) (hsteady : a.IsSteady) (hkeys : a.KeepsApart)
    (hrs : ∀ r ∈ rs, r.name ∈ a.names) (hnewer : ∀ r ∈ newer, r.name ∈ a.names)
    (htarget : target ∈ a.targets) : slot.start = o.next target := by
  obtain ⟨older, holder, hothers, hstart⟩ := h.start
  rw [hleft.slotAfter_resume hsteady hkeys hrs htarget (fun r hr => hnewer r (holder.subset hr))
    hothers] at hstart
  exact (Except.ok.inj hstart).symm

/-- So is its outcome in the second. -/
theorem Slot.Accords.again (h : slot.Accords (a.resume rs) answers newer target)
    (hprogram : o.program = target.name) (hstart : slot.start = o.next target)
    (hresult : slot.result = .ok o') : o.Again o' := by
  unfold Outcome.Again
  unfold Outcome.next at hstart
  cases slot with
  | idle o'' =>
    obtain rfl : o'' = o' := Except.ok.inj hresult
    cases hstatus : o.status with
    | ok | cached | skipped =>
      simp only [hstatus] at hstart ⊢
      rw [hprogram]
      exact Slot.idle.inj hstart
    | failed | error =>
      simp only [hstatus] at hstart
      exact nomatch hstart
  | job j progress =>
    have hprogress := h.progress j progress rfl
    cases progress with
    | ended ended =>
      obtain rfl : ended = .ok o' := hresult
      obtain ⟨result, -, hended⟩ := hprogress
      have hdelivers := (Job.delivers_of_endIn hended).1
      cases hstatus : o.status with
      | ok | cached | skipped =>
        simp only [hstatus] at hstart
        exact nomatch hstart
      | failed | error =>
        simp only [hstatus] at hstart ⊢
        obtain ⟨rfl, -⟩ := Slot.job.inj hstart
        exact ⟨hdelivers.program.trans hprogram.symm, hdelivers.files, hdelivers.status⟩
    | _ => exact nomatch hresult

/-- A job of the second run is one of a linter that did not pass. -/
theorem Outcome.eq_of_next {j : Job} (h : o.next target = .job j .waiting) :
    o.succeeded = false ∧ j = ⟨target, o.files⟩ := by
  unfold Outcome.next at h
  unfold Outcome.succeeded
  cases hstatus : o.status with
  | ok | cached | skipped =>
    simp only [hstatus] at h
    exact nomatch h
  | failed | error =>
    simp only [hstatus] at h
    exact ⟨rfl, (Slot.job.inj h).1.symm⟩

end

namespace Pool.Accords

variable {a : Outset} {answers : RunCall → Except RunError RawOutput → Prop}
  {rs newer : List RunRecord} {first : List Outcome} {p : Pool σ}

variable (h : p.Accords (a.resume rs) answers newer)
  (hleft : List.Forall₂ (Outcome.Left a rs) a.targets first) (hsteady : a.IsSteady)
  (hkeys : a.KeepsApart) (hrs : ∀ r ∈ rs, r.name ∈ a.names)

include h hleft hsteady hkeys hrs

/-- The second run looks at all targets without trouble. -/
theorem failure_eq_none : p.failure = none := by
  cases hfailure : p.failure with
  | none => rfl
  | some e =>
    obtain ⟨target, -, older, -, htarget, hothers, hslot⟩ := h.exists_refused hfailure
    obtain ⟨o, -, ho⟩ := exists_of_mem_forall₂ hleft.flip htarget
    rw [ho.slotAfter_resume hsteady hkeys hrs htarget (fun r hr => (hothers r hr).1)
      fun r hr => (hothers r hr).2] at hslot
    exact nomatch hslot

/-- The slots of the second run are those that the outcomes of the first decide on. -/
theorem starts : ∃ rest, List.zipWith (fun target o => o.next target) a.targets first =
    p.slots.map Slot.start ++ rest ∧ (p.left = [] → rest = []) := by
  obtain ⟨looked, htargets, hslots⟩ := h.slots
  replace htargets : a.targets = looked ++ p.left := htargets
  have hstarts : List.Forall₂ (fun target slot => ∀ o : Outcome, o.Left a rs target →
      slot.start = o.next target) looked p.slots := by
    refine forall₂_imp_of_mem hslots fun target hlooked slot _ haccords o ho => ?_
    exact haccords.start_eq ho hsteady hkeys hrs h.mem_names
      (htargets ▸ List.mem_append_left _ hlooked)
  rw [htargets] at hleft ⊢
  -- The induction is on the slots that the run has come to; what is left of the outcomes is the
  -- rest.
  clear htargets hslots
  generalize p.slots = slots at hstarts ⊢
  induction hstarts generalizing first with
  | nil => exact ⟨_, rfl, fun hnil => by rw [hnil]; rfl⟩
  | cons hstart _ ih =>
    obtain ⟨o, outcomes, ho, hothers, rfl⟩ := List.forall₂_cons_left_iff.mp hleft
    obtain ⟨rest, hrest, hnil⟩ := ih hothers
    refine ⟨rest, ?_, hnil⟩
    rw [List.cons_append, List.zipWith_cons_cons, hrest, List.map_cons, List.cons_append,
      hstart o ho]

/-- It calls the commands of linters that did not pass. -/
theorem called_subperm :
    (p.slots.filterMap Slot.called?).Subperm (Outcome.repeated a.targets first) ∧
      (p.IsDone → p.slots.filterMap Slot.called? = Outcome.repeated a.targets first) := by
  obtain ⟨rest, hstarts, hnil⟩ := h.starts hleft hsteady hkeys hrs
  have hrepeated : Outcome.repeated a.targets first =
      p.slots.filterMap Slot.call? ++ rest.filterMap Slot.call? := by
    rw [Outcome.repeated_eq, hstarts, List.filterMap_append, List.filterMap_map]
    simp only [Function.comp_def, Slot.call?_start]
  rw [hrepeated]
  constructor
  · exact ((Slot.sublist_called? p.slots).trans (List.sublist_append_left ..)).subperm
  · intro hdone
    have hnone := h.failure_eq_none hleft hsteady hkeys hrs
    rw [hnil (hdone.looked hnone), List.filterMap_nil, List.append_nil]
    exact List.filterMap_congr fun slot hslot => Slot.called?_of_rank (hdone.ended slot hslot)

/-- Every linter has the outcome that its first decides on. -/
theorem forall₂_again {second : List Outcome} (hsecond : p.outcomes = .ok second) :
    List.Forall₂ Outcome.Again first second := by
  obtain ⟨-, hnil, hresults⟩ := Pool.forall₂_of_outcomes hsecond
  obtain ⟨looked, htargets, hslots⟩ := h.slots
  replace htargets : a.targets = looked ++ p.left := htargets
  rw [hnil, List.append_nil] at htargets
  have hoslots : List.Forall₂ (fun o slot => ∃ target ∈ a.targets, o.Left a rs target ∧
      slot.Accords (a.resume rs) answers newer target) first p.slots := by
    rw [htargets] at hleft ⊢
    refine forall₂_comp (forall₂_imp_of_mem hleft.flip (S := fun o target =>
      target ∈ looked ∧ o.Left a rs target) fun o _ target hlooked ho => ⟨hlooked, ho⟩) hslots ?_
    exact fun o target slot ho hslot => ⟨target, ho.1, ho.2, hslot⟩
  refine forall₂_comp hoslots hresults fun o slot o' hslot hresult => ?_
  obtain ⟨target, htarget, ho, haccords⟩ := hslot
  exact haccords.again ho.program (haccords.start_eq ho hsteady hkeys hrs h.mem_names htarget)
    hresult

/-- If it has no outcomes, that is due to the result of a call that was made again. -/
theorem exists_fatal {e : RunFailure} (hdone : p.IsDone) (he : p.outcomes = .error e) :
    ∃ pair ∈ a.targets.zip first, pair.2.succeeded = false ∧ ∃ result,
      answers (Job.call ⟨pair.1, pair.2.files⟩) result ∧
        Job.endIn a.digest ⟨pair.1, pair.2.files⟩ (a.resume rs).tree result = .error e := by
  have hnone := h.failure_eq_none hleft hsteady hkeys hrs
  obtain ⟨rest, hstarts, -⟩ := h.starts hleft hsteady hkeys hrs
  rcases hdone.exists_of_outcomes he with hfailure | ⟨j, hslot⟩
  · exact nomatch hnone.symm.trans hfailure
  · -- The job was begun because of an outcome of the first run, which was none of success.
    have hmem : .job j .waiting ∈ List.zipWith (fun target o => Outcome.next target o) a.targets
        first := hstarts ▸ List.mem_append_left rest (List.mem_map_of_mem (f := Slot.start) hslot)
    rw [← List.map_uncurry_zip_eq_zipWith] at hmem
    obtain ⟨pair, hpair, hnext⟩ := List.mem_map.mp hmem
    obtain ⟨hfailed, rfl⟩ := Outcome.eq_of_next hnext
    obtain ⟨place, here⟩ := List.getElem?_of_mem hslot
    obtain ⟨target, -, haccords⟩ := h.exists_slot here
    obtain ⟨result, hanswer, hended⟩ := haccords.progress _ _ rfl
    exact ⟨pair, hpair, hfailed, result, hanswer, hended.symm⟩

end Pool.Accords

/-! ### Fit directories -/

/-- A run with a cache in a directory that is fit for it: no selection enters the directory, and the
records of all targets can be kept apart and written there. The files of all targets can be
recorded. -/
structure FileTree.KeepsCache (setup : RunSetup σ) (options : RunOptions) (c : Config)
    (t : FileTree) (targets : List Target) (cacheDir skipped : Path) : Prop where
  prepared : t.prepare setup.digest setup.homes (options.jobCount c) c =
    .ok (targets, cacheDir, skipped)
  noStore : options.store = none
  caches : c.globals.cache
  keys : ((targets.map Target.name).map fun name => CacheStore.entryName setup.digest name).Nodup
  secluded : CacheStore.Secluded setup.digest t cacheDir cacheDir targets
  takes : ∀ target ∈ targets, (CacheStore.directory cacheDir).Takes setup.digest t target.name
  readable : ∀ target ∈ targets, ∀ files,
    target.filesIn [skipped] c.globals.excludes t = .ok files →
      t.Readable (Job.paths ⟨target, files⟩) target.settings.checkHash

/-- What a run does that follows on another one with some outcomes. It calls the commands of linters
that did not pass, with the same arguments as before, and no others. Each linter has the outcome
that its first decides on, unless one of these calls comes to a result without an outcome. -/
structure RunResult.Repeats (digest : Digest)
    (answers : RunCall → Except RunError RawOutput → Prop) (targets : List Target)
    (first : List Outcome) (r r' : RunResult σ) : Prop where
  called : (Event.calls r'.state.log).Subperm (Outcome.repeated targets first)
  before : (Outcome.repeated targets first).Subperm (Event.calls r.state.log)
  complete : r'.Uninterrupted ∨ (∃ second, r'.outcomes = .ok second) →
    (Event.calls r'.state.log).Perm (Outcome.repeated targets first)
  outcomes : ∀ second, r'.outcomes = .ok second → List.Forall₂ Outcome.Again first second
  failure : ∀ e, r'.outcomes = .error e → r'.Uninterrupted →
    ∃ pair ∈ targets.zip first, pair.2.succeeded = false ∧ ∃ result,
      answers (Job.call ⟨pair.1, pair.2.files⟩) result ∧
        Job.endIn digest ⟨pair.1, pair.2.files⟩ r.state.tree result = .error e

/-! ### A linter that passes and one that does not -/

namespace Sample

open FileTree

/-- Runs of which only one command passes. -/
def mixedSetup : RunSetup Unit := { passingSetup inOrder with runner := passingOnly "/x" }

/-- Two linters that work at the root, as targets. -/
def twoTargets : List Target :=
  [⟨linter "a" "/x", ⟨.root, []⟩, [], ""⟩, ⟨linter "b" "/y", ⟨.root, []⟩, [], ""⟩]

theorem open_cache : ∀ name ∈ ["a", "b"],
    CacheStore.Open digest treeWithCache ⟨.root, ["c"]⟩ ["c"] name := by
  intro name hname
  rcases List.mem_pair.mp hname with rfl | rfl
  · refine ⟨?_, .inl (by cbv)⟩
    constructor <;> decide
  · refine ⟨?_, .inl (by cbv)⟩
    constructor <;> decide

theorem keepsCache_mixed : treeWithCache.KeepsCache mixedSetup (options none)
    (config true [linter "a" "/x", linter "b" "/y"]) twoTargets
    ⟨.root, ["c"]⟩ ⟨.root, ["c"]⟩ := by
  have hfiles : ∀ target ∈ twoTargets,
      target.filesIn [⟨.root, ["c"]⟩] [] treeWithCache = .ok ["x"] := by
    intro target htarget
    rcases List.mem_pair.mp htarget with rfl | rfl
    · cbv
    · cbv
  have hdirs : ∀ target ∈ twoTargets, target.workDir = ⟨.root, []⟩ ∧
      target.settings.checkHash = false := by
    intro target htarget
    rcases List.mem_pair.mp htarget with rfl | rfl <;> exact ⟨rfl, rfl⟩
  have hmade : (treeWithCache.makeDirs ⟨.root, ["c"]⟩).1 = treeWithCache := by
    rw [isDirAt_cache.makeDirs]
  have hnames : ∀ target ∈ twoTargets, target.name ∈ ["a", "b"] := fun target htarget =>
    List.mem_map_of_mem (f := Target.name) htarget
  have hmtime : treeWithCache.mtime ⟨.root, ["x"]⟩ = .ok 1 := by cbv
  refine ⟨by cbv, rfl, rfl, by decide,
    secluded_cache fun target htarget => (hdirs target htarget).1,
    fun target htarget => ⟨["c"], ?_, ?_⟩, fun target htarget files hin => ?_⟩
  · rw [hmade]
    exact isDirAt_cache
  · rw [hmade]
    exact open_cache target.name (hnames target htarget)
  · obtain rfl : files = ["x"] := Except.ok.inj (hin.symm.trans (hfiles target htarget))
    obtain ⟨hworkDir, hhash⟩ := hdirs target htarget
    have hpaths : Job.paths ⟨target, ["x"]⟩ = [⟨.root, ["x"]⟩] := by
      simp only [Job.paths, hworkDir]
      cbv
    rw [hpaths, hhash]
    refine ⟨observable_singleton hmtime, fun p hp m hm => ?_⟩
    obtain rfl := List.mem_singleton.mp hp
    obtain rfl := Except.ok.inj (hm.symm.trans hmtime)
    decide

end Sample

/-! ### Two runs in a row -/

namespace FileTree

section

variable {setup : RunSetup σ} {options : RunOptions} {c : Config} {t : FileTree}
  {targets : List Target} {cacheDir skipped : Path}
  (h : t.KeepsCache setup options c targets cacheDir skipped)

include h

theorem KeepsCache.storeFor_eq : options.storeFor c cacheDir = .directory cacheDir := by
  simp [RunOptions.storeFor, Config.ownStore, h.noStore, h.caches]

/-- The next run finds the same targets. -/
theorem KeepsCache.prepare_saveAll {rs : List RunRecord}
    (hrs : ∀ r ∈ rs, r.name ∈ targets.map Target.name) :
    ((CacheStore.directory cacheDir).saveAll setup.digest t rs).2.prepare setup.digest setup.homes
      (options.jobCount c) c = .ok (targets, cacheDir, skipped) := by
  have hgrows := CacheStore.grows_saveAll h.secluded.lodges hrs
  refine prepare_grows h.prepared hgrows h.secluded.lodges.formed.named ?_
  refine CacheStore.realPath_saveAll h.secluded.lodges hrs fun hne => ?_
  -- The directory is there if a record was written in it.
  obtain ⟨r, hr⟩ := List.exists_mem_of_ne_nil rs hne
  obtain ⟨target, htarget, -⟩ := List.mem_map.mp (hrs r hr)
  obtain ⟨place, hat, -⟩ := h.takes target htarget
  exact ⟨place, hat⟩

end

/-- A run with a cache in a directory that is fit for it, which changes no file, has its outcomes
unless it is interrupted or refused. The next run calls the commands of linters that did not pass,
and no others, and every other linter is spared or skipped. -/
theorem next_run_exact (setup : RunSetup σ) (options : RunOptions) (c : Config) (t : FileTree)
    (x : σ) (schedule : Nat → List Turn) {targets : List Target} {cacheDir skipped : Path}
    (h : t.KeepsCache setup options c targets cacheDir skipped)
    (hquiet : ∀ call world, (setup.runner call world).2.1 = world.1)
    (hcomplete : ∀ count, Turn.Completes count (setup.schedule count))
    (hcomplete' : ∀ count, Turn.Completes count (schedule count)) :
    let a : Outset := ⟨setup.digest, [skipped], c.globals.excludes, .directory cacheDir, t, targets⟩
    let answers := fun call result => ∃ world, (setup.runner call world).1.result = result
    let r := t.run setup options c x
    let r' := r.state.tree.run { setup with schedule } options c r.state.runner
    (∀ e, r.outcomes = .error e → r.Uninterrupted →
      ∃ target ∈ targets, target.Refusal a answers e) ∧
    ∀ first, r.outcomes = .ok first → r.Repeats setup.digest answers targets first r' := by
  intro a answers r r'
  obtain ⟨haims, -, hskipped⟩ := prepare_spec h.prepared
  have hgives : setup.runner.Gives answers := ⟨hquiet, fun call world => ⟨world, rfl⟩⟩
  have hsteady : a.IsSteady := h.secluded.isSteady hskipped (isDir_of_aims haims) _
  have hkeys : a.KeepsApart := h.keys
  have hdistinct : a.names.Nodup := List.Nodup.of_map _ hkeys
  obtain ⟨p, rs, haccords, hcollects⟩ := exists_pool_of_run setup options c x a h.prepared
    h.storeFor_eq ⟨rfl, rfl, rfl⟩ hsteady hdistinct hgives hcomplete
  refine ⟨fun e he hcalm => ?_, fun first hfirst => ?_⟩
  · have hdone := hcollects.done (hcollects.uninterrupted hcalm)
    exact haccords.exists_refusal hdone hsteady h.readable (hcollects.outcomes.symm.trans he)
  -- The next run starts from what the first has left behind.
  have hrs := haccords.mem_names
  have htree : r.state.tree = (a.after rs).2 :=
    congrArg Prod.snd (hcollects.saved.trans haccords.saved)
  have hresults := hcollects.outcomes.symm.trans hfirst
  have hleft := haccords.left hsteady hkeys hresults h.takes h.readable
  have hstore : options.storeFor c cacheDir = (a.resume rs).store :=
    h.storeFor_eq.trans (CacheStore.saveAll_fst_directory ..).symm
  obtain ⟨p', newer, haccords', hcollects'⟩ := exists_pool_of_run { setup with schedule } options c
    r.state.runner (a.resume rs) (h.prepare_saveAll hrs) hstore ⟨rfl, rfl, rfl⟩ (hsteady.resume hrs)
    hdistinct hgives hcomplete'
  have hr' : r' = (a.resume rs).tree.run { setup with schedule } options c r.state.runner :=
    congrArg (fun u => FileTree.run { setup with schedule } options c u r.state.runner) htree
  rw [← hr'] at hcollects'
  obtain ⟨hsubperm, hall⟩ := haccords'.called_subperm hleft hsteady hkeys hrs
  have hdone' := fun hcalm => hcollects'.done (hcollects'.uninterrupted hcalm)
  refine ⟨hcollects'.calls.subperm.trans hsubperm, ?_, ?_, fun second hsecond => ?_,
    fun e he hcalm => ?_⟩
  · exact (haccords.repeated_subperm hresults).trans hcollects.calls.symm.subperm
  · rintro (hcalm | ⟨second, hsecond⟩)
    · exact hall (hdone' hcalm) ▸ hcollects'.calls
    · exact hall (Pool.isDone_of_outcomes (hcollects'.outcomes.symm.trans hsecond)) ▸
        hcollects'.calls
  · exact haccords'.forall₂_again hleft hsteady hkeys hrs (hcollects'.outcomes.symm.trans hsecond)
  · rw [htree]
    exact haccords'.exists_fatal hleft hsteady hkeys hrs (hdone' hcalm)
      (hcollects'.outcomes.symm.trans he)

/-- The first of two linters passes and is spared in the next run, and the command of the other one
is called again. -/
theorem next_run_exact_one_passes :
    let r := Sample.treeWithCache.run Sample.mixedSetup (Sample.options none)
      (Sample.config true [Sample.linter "a" "/x", Sample.linter "b" "/y"]) ()
    let r' := r.state.tree.run Sample.mixedSetup (Sample.options none)
      (Sample.config true [Sample.linter "a" "/x", Sample.linter "b" "/y"]) r.state.runner
    (Event.calls r'.state.log).map (·.command) = ["/y"] ∧
      ∃ again, r'.outcomes = .ok [.idle "a" .cached ["x"], again] ∧ again.files = ["x"] := by
  intro r r'
  obtain ⟨-, hnext⟩ := next_run_exact Sample.mixedSetup (Sample.options none)
    (Sample.config true [Sample.linter "a" "/x", Sample.linter "b" "/y"]) Sample.treeWithCache ()
    inOrder Sample.keepsCache_mixed (fun _ _ => rfl) completes_inOrder completes_inOrder
  have hfirst : (Sample.treeWithCache.run Sample.mixedSetup (Sample.options none)
      (Sample.config true [Sample.linter "a" "/x", Sample.linter "b" "/y"]) ()).outcomes = .ok
      [{ program := "a", status := .ok, exitStatus := some 0, output := "", lines := []
         error := none, files := ["x"], modified := [] },
       { program := "b", status := .failed, exitStatus := some 1, output := "", lines := []
         error := none, files := ["x"], modified := [] }] := by
    cbv
  have hrepeats := hnext _ hfirst
  have hcalm : r'.Uninterrupted := uninterrupted_of_runner _ _ _ _ _
    fun _ _ hresult => by cases hresult
  have hcalls := List.perm_singleton.mp (hrepeats.complete (.inl hcalm))
  refine ⟨congrArg (List.map (·.command)) hcalls, ?_⟩
  cases hsecond : r'.outcomes with
  | error e =>
    -- The command that is called again has a result with an outcome.
    obtain ⟨pair, hpair, hfailed, result, ⟨world, rfl⟩, hended⟩ := hrepeats.failure e hsecond hcalm
    generalize r.state.tree = t at hended
    rcases List.mem_pair.mp hpair with rfl | rfl
    · cases hfailed
    · cases hended
  | ok second =>
    cases hrepeats.outcomes second hsecond with
    | cons ha hrest =>
      cases hrest with
      | cons hb hnil =>
        cases hnil
        obtain rfl := ha
        exact ⟨_, rfl, hb.2.1⟩

/-- An entry whose bytes are no text ends a run, and the next one too. One whose text is no document
is passed over. -/
theorem unreadable_entry_ends_runs :
    let run := fun t : FileTree => t.run (Sample.passingSetup inOrder) (Sample.options none)
      (Sample.config true [Sample.linter "b" "/x"]) ()
    (run (Sample.treeWithEntry [255])).outcomes = .error (.entry .notText) ∧
      (run (run (Sample.treeWithEntry [255])).state.tree).outcomes = .error (.entry .notText) ∧
      (run (Sample.treeWithEntry [123])).outcomes.map (·.map (·.status)) = .ok [.ok] := by
  refine ⟨?_, ?_, ?_⟩
  · cbv
  · cbv
  · cbv

end FileTree

end LinterSuite
