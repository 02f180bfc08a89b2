import LinterSuite.Proofs.Run.Outcomes
import LinterSuite.Proofs.Run.Reports
import LinterSuite.Proofs.Run.Samples
import LinterSuite.Proofs.Run.Statuses

/-!
# Files that a linter modifies

A job looks at its files before its command is run, and again when it settles what came of it. Which
of them look different is told in its outcome, but only if the command ran to its end: one that
fails on the way may have written files as well, and none of them is told.

## Main definitions

* `FileTree.Altered`: a file that could be found, and is not found as it was
* `Job.altered`: the files of a job that are so
* `Job.Falters`: why a job whose command was run has no outcome
* `Job.Course`: a job with the states in which it took its steps
* `Job.Underway`, `Pool.OnCourse`: jobs that have come so far by steps in states of a run

## Main results

* `FileTree.changed_observe`: comparing observations tells the files that are altered
* `Job.modified_of_endsWith`: what is told of a job by its outcome
* `Pool.onCourse_run`: every job of a run goes back to states of the run
* `FileTree.modified_exact`: which files the outcomes of a run tell
* `FileTree.modified_untold`: these are not all that were modified
-/

namespace LinterSuite

variable {σ : Type}

/-! ### Comparing observations -/

namespace FileTree

/-- The time and size of a file could be told in one tree, and are not the same in another, where it
need not be found at all. -/
def Altered (t t' : FileTree) (p : Path) : Prop :=
  ∃ found, t.times p = .ok found ∧ t'.times p ≠ .ok found

theorem altered_iff_of_ok {t t' : FileTree} {p : Path} {found : Int × Nat}
    (h : t.times p = .ok found) : t.Altered t' p ↔ (t'.times p).toOption ≠ some found := by
  have hok : t'.times p = .ok found ↔ (t'.times p).toOption = some found := by
    cases t'.times p <;> simp [Except.toOption]
  unfold Altered
  simp only [h, Except.ok.injEq, exists_eq_left', ne_eq, hok]

theorem not_altered_of_error {t t' : FileTree} {p : Path} {e : FileError}
    (h : t.times p = .error e) : ¬ t.Altered t' p := by
  rintro ⟨found, hfound, -⟩
  rw [h] at hfound
  exact nomatch hfound

instance (t t' : FileTree) (p : Path) : Decidable (t.Altered t' p) :=
  match h : t.times p with
  | .ok _ => decidable_of_iff' _ (altered_iff_of_ok h)
  | .error _ => .isFalse (not_altered_of_error h)

variable (t t' : FileTree) (dir : Path)

theorem observe_cons_of_ok {f : String} {found : Int × Nat}
    (h : t.times (dir.join (Path.ofString f)) = .ok found) (files : List String) :
    t.observe dir (f :: files) = (f, found) :: t.observe dir files := by
  simp [observe, h, Except.toOption]

theorem observe_cons_of_error {f : String} {e : FileError}
    (h : t.times (dir.join (Path.ofString f)) = .error e) (files : List String) :
    t.observe dir (f :: files) = t.observe dir files := by
  simp [observe, h, Except.toOption]

/-- Every file is observed as it is found. -/
theorem lookup_observe (files : List String) (f : String) :
    (t.observe dir files).lookup f =
      if f ∈ files then (t.times (dir.join (Path.ofString f))).toOption else none := by
  induction files with
  | nil => rfl
  | cons g files ih =>
    by_cases hfg : f = g
    · subst hfg
      rw [if_pos List.mem_cons_self]
      cases htimes : t.times (dir.join (Path.ofString f)) with
      | ok found =>
        rw [observe_cons_of_ok t dir htimes, List.lookup_cons_self]
        rfl
      | error e =>
        -- A file that cannot be found is not found further on in the list either.
        rw [observe_cons_of_error t dir htimes, ih, htimes]
        exact ite_self none
    · have hmem : f ∈ g :: files ↔ f ∈ files := by simp [hfg]
      rw [if_congr hmem rfl rfl, ← ih]
      cases htimes : t.times (dir.join (Path.ofString g)) with
      | ok found =>
        have hne : (f == g) = false := by simpa using hfg
        rw [observe_cons_of_ok t dir htimes, List.lookup_cons, hne]
      | error e => rw [observe_cons_of_error t dir htimes]

/-- Comparing observations of the same files in two trees tells those that are altered, in order. -/
theorem changed_observe (files : List String) :
    (t.observe dir files).changed (t'.observe dir files) =
      files.filter fun f => t.Altered t' (dir.join (Path.ofString f)) := by
  -- The induction is on the files that are compared, all of which are looked up among all files.
  suffices hcompared : ∀ compared ⊆ files,
      (t.observe dir compared).changed (t'.observe dir files) =
        compared.filter fun f => t.Altered t' (dir.join (Path.ofString f)) from
    hcompared files (List.Subset.refl files)
  intro compared hsubset
  induction compared with
  | nil => rfl
  | cons f compared ih =>
    obtain ⟨hf, hrest⟩ := List.cons_subset.mp hsubset
    have ih := ih hrest
    unfold Observation.changed at ih ⊢
    cases htimes : t.times (dir.join (Path.ofString f)) with
    | error e =>
      rw [observe_cons_of_error t dir htimes, ih,
        List.filter_cons_of_neg (by simpa using not_altered_of_error htimes)]
    | ok found =>
      rw [observe_cons_of_ok t dir htimes]
      have hlookup := t'.lookup_observe dir files f
      rw [if_pos hf] at hlookup
      have haltered : t.Altered t' (dir.join (Path.ofString f)) ↔
          (t'.observe dir files).lookup f ≠ some found := by
        rw [hlookup]
        exact altered_iff_of_ok htimes
      by_cases hsame : (t'.observe dir files).lookup f = found
      · rw [List.filter_cons_of_neg (by simpa using hsame), ih,
          List.filter_cons_of_neg (by simpa [haltered] using hsame)]
      · rw [List.filter_cons_of_pos (by simpa using hsame), List.map_cons, ih,
          List.filter_cons_of_pos (by simpa [haltered] using hsame)]

end FileTree

/-! ### Jobs -/

namespace Job

variable {digest : Digest} {runner : Runner σ} {j : Job}

/-- The files of a job that could be found in a tree, and are not found in another as they were. -/
def altered (j : Job) (t t' : FileTree) : List String :=
  j.files.filter fun f => t.Altered t' (j.target.workDir.join (Path.ofString f))

/-- A job that took its steps in these states of a run and came to an outcome. Others may have taken
theirs in between. -/
structure Course (digest : Digest) (runner : Runner σ) (first : RunState σ) (j : Job)
    (looked called settled : RunState σ) (ended : Except RunFailure Outcome) : Prop where
  before : RunState.Acts digest runner first looked
  between : RunState.Acts digest runner looked called
  after : RunState.Acts digest runner (called.afterCall runner j.call) settled
  ends : j.EndsWith digest (j.observeIn looked.tree)
    (runner j.call (called.tree, called.runner)).1.result settled.tree ended

/-- What is told of a job that looked at its files in two trees: the files that are altered if its
command ran to its end, and none if it did not. -/
theorem modified_of_outcome {t t' : FileTree} {result : Except RunError RawOutput} {o : Outcome}
    (h : j.outcome (j.observeIn t) (j.observeIn t') result = .ok o) :
    o.modified = if o.status = .error then [] else j.altered t t' := by
  cases result with
  | ok raw =>
    obtain ⟨lines, -, ho⟩ := Except.bind_eq_ok_iff.mp (Except.mapError_eq_ok_iff.mp h)
    obtain rfl := Except.ok.inj ho
    have hstatus : (if raw.success then Status.ok else .failed) ≠ .error := by
      split <;> simp
    rw [if_neg hstatus]
    exact FileTree.changed_observe t t' j.target.workDir j.files
  | error err =>
    cases err with
    | failed f =>
      obtain ⟨lines, -, ho⟩ := Except.bind_eq_ok_iff.mp (Except.mapError_eq_ok_iff.mp h)
      obtain rfl := Except.ok.inj ho
      rfl
    | home | path | nullInArgument | unwaited | interrupted => exact nomatch h

theorem modified_of_endsWith {t t' : FileTree} {result : Except RunError RawOutput} {o : Outcome}
    (h : j.EndsWith digest (j.observeIn t) result t' (.ok o)) :
    o.modified = if o.status = .error then [] else j.altered t t' := by
  cases h with
  | recorded outcome => exact modified_of_outcome outcome

/-- Why a job whose command was run has no outcome: it met an exception that is none of the linter,
it wrote a numeral that is too long to be read, or its files cannot be recorded. -/
inductive Falters (digest : Digest) (j : Job) (result : Except RunError RawOutput) (t : FileTree) :
    RunFailure → Prop
  | escaped {err : RunError} {e : RunFailure} (met : result = .error err)
      (escapes : err.toRunFailure? = some e) : Falters digest j result t e
  | misread {output : String} {e : Text.NumeralTooLong} (written : written? result = some output)
      (unread : Grammar.parseOutput j.target.grammars j.name output = .error e) :
      Falters digest j result t (.numeral e)
  | unrecorded {o : Outcome} {e : FileTree.PathError} (record : j.recordIn digest t o = .error e) :
      Falters digest j result t (.path e)

theorem falters_of_endsWith {before : Observation} {t : FileTree}
    {result : Except RunError RawOutput} {e : RunFailure}
    (h : j.EndsWith digest before result t (.error e)) : j.Falters digest result t e := by
  cases h with
  | unread outcome =>
    rcases outcome_error outcome with ⟨err, hmet, hescapes⟩ | ⟨output, n, hwritten, hread, rfl⟩
    · exact .escaped hmet hescapes
    · exact .misread hwritten hread
  | unrecorded outcome record => exact .unrecorded record

/-- A job that takes its steps one after the other comes to an end. -/
theorem exists_end_of_steps (digest : Digest) (runner : Runner σ) (j : Job) (s : RunState σ) :
    ∃ ended,
      ((fun at' => j.step digest runner at'.1 at'.2)^[stepsOfJob] (.waiting, s)).1 = .ended ended ∧
      j.EndsWith digest (j.observeIn s.tree) (runner j.call (s.tree, s.runner)).1.result
        (runner j.call (s.tree, s.runner)).2.1 ended := by
  obtain ⟨ended, s', hsettle, hsettles⟩ := j.settles_settle digest (j.observeIn s.tree)
    (runner j.call (s.tree, s.runner)).1.result (s.afterCall runner j.call)
  have hsteps : (fun at' => j.step digest runner at'.1 at'.2)^[stepsOfJob] (.waiting, s) =
      j.settle digest (j.observeIn s.tree) (runner j.call (s.tree, s.runner)).1.result
        (s.afterCall runner j.call) := rfl
  exact ⟨ended, by rw [hsteps, hsettle], hsettles.endsWith⟩

end Job

/-! ### Jobs among others -/

/-- A job that has come so far by steps that it took in states of a run. -/
def Job.Underway (digest : Digest) (runner : Runner σ) (first now : RunState σ) (j : Job) :
    JobState → Prop
  | .waiting => True
  | .observed before => ∃ looked, RunState.Acts digest runner first looked ∧
      RunState.Acts digest runner looked now ∧ before = j.observeIn looked.tree
  | .returned before result => ∃ looked called, RunState.Acts digest runner first looked ∧
      RunState.Acts digest runner looked called ∧
      RunState.Acts digest runner (called.afterCall runner j.call) now ∧
      before = j.observeIn looked.tree ∧
      result = (runner j.call (called.tree, called.runner)).1.result
  | .ended ended => ∃ looked called settled,
      j.Course digest runner first looked called settled ended

/-- What others do later does not matter. -/
theorem Job.Underway.acts {digest : Digest} {runner : Runner σ} {first now later : RunState σ}
    {j : Job} {progress : JobState} (h : j.Underway digest runner first now progress)
    (hacts : RunState.Acts digest runner now later) :
    j.Underway digest runner first later progress := by
  cases progress with
  | waiting => trivial
  | observed before =>
    obtain ⟨looked, hlooked, hnow, hbefore⟩ := h
    exact ⟨looked, hlooked, hnow.trans hacts, hbefore⟩
  | returned before result =>
    obtain ⟨looked, called, hlooked, hcalled, hnow, hbefore, hresult⟩ := h
    exact ⟨looked, called, hlooked, hcalled, hnow.trans hacts, hbefore, hresult⟩
  | ended ended => exact h

namespace Pool

variable {terms : Terms σ} {first : RunState σ} {p p' : Pool σ}

/-- A pool whose jobs have come so far by steps that they took in states of a run. -/
structure OnCourse (terms : Terms σ) (first : RunState σ) (p : Pool σ) : Prop where
  acts : RunState.Acts terms.digest terms.runner first p.state
  jobs : ∀ j progress, .job j progress ∈ p.slots →
    j.Underway terms.digest terms.runner first p.state progress

theorem onCourse_fresh (terms : Terms σ) (targets : List Target) (s : RunState σ) :
    (fresh targets s).OnCourse terms s :=
  ⟨.refl, fun _ _ hmem => absurd hmem List.not_mem_nil⟩

/-- A job goes on. -/
theorem OnCourse.jobs_set (h : p.OnCourse terms first) {s : RunState σ}
    (hacts : RunState.Acts terms.digest terms.runner p.state s) {place : Nat} {j : Job}
    {progress : JobState} (hprogress : j.Underway terms.digest terms.runner first s progress) :
    ∀ j' progress', .job j' progress' ∈ p.slots.set place (.job j progress) →
      j'.Underway terms.digest terms.runner first s progress' := by
  intro j' progress' hmem
  rcases List.mem_or_eq_of_mem_set hmem with hmem | heq
  · exact (h.jobs j' progress' hmem).acts hacts
  · obtain ⟨rfl, rfl⟩ := Slot.job.inj heq
    exact hprogress

theorem OnCourse.moves (h : p.OnCourse terms first) (hmove : Moves terms p p') :
    p'.OnCourse terms first := by
  have hacts := hmove.acts
  refine ⟨h.acts.trans hacts, ?_⟩
  cases hmove with
  | rest => exact h.jobs
  | refuse => exact fun j progress hmem => (h.jobs j progress hmem).acts hacts
  | @enter target rest events slot going next found =>
    intro j progress hmem
    rcases List.mem_append.mp hmem with hmem | hmem
    · exact (h.jobs j progress hmem).acts hacts
    · -- A job that was just made has taken no step.
      obtain rfl := List.mem_singleton.mp hmem
      obtain rfl : progress = .waiting := (found_slotOf found).isNew
      trivial
  | observe => exact h.jobs_set .refl ⟨p.state, h.acts, .refl, rfl⟩
  | call here =>
    obtain ⟨looked, hlooked, hnow, rfl⟩ := h.jobs _ _ (List.mem_of_getElem? here)
    exact h.jobs_set hacts ⟨looked, p.state, hlooked, hnow, .refl, rfl, rfl⟩
  | settle here settles =>
    obtain ⟨looked, called, hlooked, hcalled, hnow, rfl, rfl⟩ :=
      h.jobs _ _ (List.mem_of_getElem? here)
    exact h.jobs_set hacts
      ⟨looked, called, p.state, hlooked, hcalled, hnow, settles.endsWith⟩

/-- Every job of a run has come so far by steps that it took in states of the run. -/
theorem onCourse_run (terms : Terms σ) (targets : List Target) (s : RunState σ)
    (schedule : List Turn) : ((fresh targets s).run terms schedule).OnCourse terms s :=
  run_induction (onCourse_fresh terms targets s) (fun _ _ hmove h => h.moves hmove) schedule

end Pool

namespace FileTree

variable (setup : RunSetup σ) (options : RunOptions) (c : Config) (t : FileTree) (x : σ)

/-- An outcome that is reported is one of a linter that was not run, or goes back to the states in
which a job of the linter took its steps. -/
theorem exists_course_of_finished {o : Outcome}
    (h : .finished o ∈ (t.run setup options c x).state.log) :
    (o.status = .skipped ∨ o.status = .cached) ∧ o.modified = [] ∨
      ∃ (s : LinterSettings) (target : Target) (first looked called settled : RunState σ),
        s ∈ c.linters ∧ t.Aims setup.digest setup.homes c.root s target ∧
        first.tree = t ∧ first.runner = x ∧
        Job.Course setup.digest setup.runner first ⟨target, o.files⟩ looked called settled
          (.ok o) := by
  cases hprepare : t.prepare setup.digest setup.homes (options.jobCount c) c with
  | error e =>
    have hlog : (t.run setup options c x).state.log = [] := by simp only [run, hprepare]
    rw [hlog] at h
    exact absurd h List.not_mem_nil
  | ok found =>
    obtain ⟨targets, cacheDir, skipped⟩ := found
    obtain ⟨haims, -, -⟩ := prepare_spec hprepare
    obtain ⟨slot, hslot, hresult⟩ := exists_slot_of_finished setup options c t x hprepare h
    -- The pool is traced to its targets, and its jobs to the states in which they took their steps.
    let first : RunState σ := RunState.say ⟨t, x, options.storeFor c cacheDir, []⟩ [.noted .run
      s!"running {targets.length} linter(s) with {options.jobCount c} job(s)"]
    obtain ⟨-, ⟨looked, htargets, hslots⟩, -⟩ := Pool.traced_run
      (setup.terms (options.jobCount c) c skipped) targets first (setup.schedule targets.length)
    obtain ⟨-, hjobs⟩ := Pool.onCourse_run
      (setup.terms (options.jobCount c) c skipped) targets first (setup.schedule targets.length)
    obtain ⟨target, htarget, htrace⟩ := exists_of_mem_forall₂ hslots hslot
    cases slot with
    | idle o' =>
      obtain rfl : o' = o := Except.ok.inj hresult
      obtain ⟨_, -, hfound⟩ := htrace.found
      cases hfound with
      | nothing => exact .inl ⟨.inl rfl, rfl⟩
      | spared => exact .inl ⟨.inr rfl, rfl⟩
    | job j progress =>
      obtain rfl := htrace.target_eq
      cases progress with
      | ended ended =>
        obtain rfl : ended = .ok o := hresult
        obtain ⟨lookedAt, called, settled, hcourse⟩ := hjobs j _ hslot
        have htarget : j.target ∈ targets := htargets ▸ List.mem_append_left _ htarget
        obtain ⟨s, hs, haim⟩ := exists_of_mem_forall₂ haims htarget
        refine .inr ⟨s, j.target, first, lookedAt, called, settled, hs, haim, rfl, rfl, ?_⟩
        rw [hcourse.ends.delivers.files]
        exact hcourse
      | waiting | observed | returned => simp [Slot.result] at hresult

/-- Which files an outcome tells as modified. A job that takes its steps without others in between
has an outcome, unless it falters, and tells exactly the files that could be found before its
command was run, and are not found as they were afterwards, in the order in which they were
selected; but it tells none if the command could not be run to its end. In a run the job looks at
its files in two states of the run, one before its command is called and one after it. A linter that
was not run tells none. So the files that were altered are told exactly if the command ran to its
end, or there are none. -/
theorem modified_exact :
    (∀ (j : Job) (s : RunState σ),
      let (report, after, _) := setup.runner j.call (s.tree, s.runner)
      ∃ ended, ((fun at' => j.step setup.digest setup.runner at'.1 at'.2)^[stepsOfJob]
          (.waiting, s)).1 = .ended ended ∧
        (∀ o, ended = .ok o → o.modified =
          if o.status = .error then [] else j.altered s.tree after) ∧
        ∀ e, ended = .error e → j.Falters setup.digest report.result after e) ∧
    ∀ o : Outcome, .finished o ∈ (t.run setup options c x).state.log ∨
        (∃ outcomes, (t.run setup options c x).outcomes = .ok outcomes ∧ o ∈ outcomes) →
      (o.status = .skipped ∨ o.status = .cached) ∧ o.modified = [] ∨
      ∃ (s : LinterSettings) (target : Target) (first looked called settled : RunState σ),
        (s ∈ c.linters ∧ t.Aims setup.digest setup.homes c.root s target) ∧
        (first.tree = t ∧ first.runner = x) ∧
        Job.Course setup.digest setup.runner first ⟨target, o.files⟩ looked called settled
          (.ok o) ∧
        (o.modified = if o.status = .error then []
          else Job.altered ⟨target, o.files⟩ looked.tree settled.tree) ∧
        (o.modified = Job.altered ⟨target, o.files⟩ looked.tree settled.tree ↔
          o.status ≠ .error ∨ Job.altered ⟨target, o.files⟩ looked.tree settled.tree = []) := by
  refine ⟨fun j s => ?_, fun o ho => ?_⟩
  · obtain ⟨ended, hsteps, hends⟩ := Job.exists_end_of_steps setup.digest setup.runner j s
    refine ⟨ended, hsteps, ?_, ?_⟩
    · rintro o rfl
      exact Job.modified_of_endsWith hends
    · rintro e rfl
      exact Job.falters_of_endsWith hends
  -- What a run returns it has also reported.
  have hfinished : .finished o ∈ (t.run setup options c x).state.log := by
    rcases ho with ho | ⟨outcomes, houtcomes, ho⟩
    · exact ho
    · exact finished_of_mem_outcomes setup options c t x houtcomes ho
  rcases exists_course_of_finished setup options c t x hfinished with
    hidle | ⟨s, target, first, looked, called, settled, hs, haim, htree, hx, hcourse⟩
  · exact .inl hidle
  · have hmodified := Job.modified_of_endsWith hcourse.ends
    refine .inr ⟨s, target, first, looked, called, settled, ⟨hs, haim⟩, ⟨htree, hx⟩, hcourse,
      hmodified, ?_⟩
    rw [hmodified]
    -- A command that was not run to its end tells no files, whatever became of them.
    by_cases hstatus : o.status = .error
    · rw [if_pos hstatus, or_iff_right (not_not_intro hstatus)]
      exact eq_comm
    · rw [if_neg hstatus]
      exact iff_of_true rfl (.inl hstatus)

end FileTree

/-! ### A command that rewrites a file -/

namespace Sample

/-- The tree with two files after one of them was written. -/
def pairWritten : FileTree :=
  { root := .dir 0 [("x", .file { content := [], mtime := 1, executable := true }),
      ("y", .file { content := [65], mtime := 2, executable := false })]
    cwd := [], clock := 3 }

/-- Runs in which every command writes that file, and then comes to a result. -/
def touching (result : Except RunError RawOutput) : RunSetup Unit :=
  { setup with runner := fun _ (_, u) => (⟨[], [], result⟩, (pairWritten, u)) }

/-- A run of one linter with such a command. -/
def touchedRun (result : Except RunError RawOutput) : RunResult Unit :=
  pair.run (touching result) (options none) (config false [linter "a" "/x"]) ()

end Sample

namespace FileTree

/-- A command that fails after it has written one of two files: this file is told. -/
theorem modified_exact_rewritten :
    (Sample.touchedRun (.ok ⟨1, ""⟩)).outcomes.map
        (·.map fun o => (o.status, o.files, o.modified)) = .ok [(.failed, ["x", "y"], ["y"])] ∧
      ∃ (target : Target) (looked settled : RunState Unit),
        Job.altered ⟨target, ["x", "y"]⟩ looked.tree settled.tree = ["y"] := by
  have houtcomes : (Sample.touchedRun (.ok ⟨1, ""⟩)).outcomes = .ok
      [{ program := "a", status := .failed, exitStatus := some 1, output := "", lines := []
         error := none, files := ["x", "y"], modified := ["y"] }] := by
    cbv
  refine ⟨by rw [houtcomes]; rfl, ?_⟩
  rcases (modified_exact (Sample.touching (.ok ⟨1, ""⟩)) (Sample.options none)
      (Sample.config false [Sample.linter "a" "/x"]) Sample.pair ()).2 _
      (.inr ⟨_, houtcomes, List.mem_singleton_self _⟩) with
    ⟨-, hnone⟩ | ⟨_, target, _, looked, _, settled, -, -, -, hmodified, -⟩
  · cases hnone
  · exact ⟨target, looked, settled, hmodified.symm⟩

/-- A command that is given up after it has written one of two files: no file is told. -/
theorem modified_untold :
    (Sample.touchedRun (.error (.failed ⟨.reason "died", [], ""⟩))).outcomes.map
        (·.map fun o => (o.status, o.files, o.modified)) = .ok [(.error, ["x", "y"], [])] ∧
      Sample.pair.times ⟨.root, ["y"]⟩ = .ok (1, 0) ∧
      (Sample.touchedRun (.error (.failed ⟨.reason "died", [], ""⟩))).state.tree.times
        ⟨.root, ["y"]⟩ = .ok (2, 1) := by
  refine ⟨?_, ?_, ?_⟩ <;> cbv

end FileTree

end LinterSuite
