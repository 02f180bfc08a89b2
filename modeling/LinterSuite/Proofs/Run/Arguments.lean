import LinterSuite.Proofs.Cache.Verdict
import LinterSuite.Proofs.Run.Samples
import LinterSuite.Proofs.Run.Stores
import Mathlib.Data.List.Nodup

/-!
# The call that a cached outcome stands for

A linter is spared if the record of an earlier run has the fingerprint of its settings. The
fingerprint is a digest of the settings that go into the call of the command, with one exception:
whether files are passed to the command at all is read off the patterns of files to be included, and
these are left out. So the call that is saved may be another one than the call that was recorded. It
is the same, but for the time it may take, exactly if both settings have such patterns, or none has.

## Main definitions

* `LinterSettings.SameFingerprint`: settings that agree on all that goes into a fingerprint

## Main results

* `FileTree.traced_outcomes`: every outcome of a run goes back to a target
* `Slot.Traces.called_of_ran`, `Slot.Traces.recorded_of_cached`: what an outcome tells of the run
* `FileTree.cached_arguments_exact`: when the call that is saved is the one that was recorded
* `FileTree.cached_arguments_differ`: it is not always
-/

namespace LinterSuite

variable {σ : Type}

/-! ### Settings -/

/-- Settings that agree on all that goes into a fingerprint. -/
structure LinterSettings.SameFingerprint (s s' : LinterSettings) : Prop where
  name : s'.name = s.name
  command : s'.command = s.command
  options : s'.options = s.options
  formats : s'.formats = s.formats
  workDir : s'.workDir = s.workDir
  singleFile : s'.singleFile = s.singleFile
  checkHash : s'.checkHash = s.checkHash

namespace LinterSettings.SameFingerprint

variable {s s' : LinterSettings} (h : s.SameFingerprint s')

include h

theorem fingerprintStream_eq (workDir : Path) :
    s'.fingerprintStream workDir = s.fingerprintStream workDir := by
  simp only [fingerprintStream, fingerprintFields, h.command, h.options, h.formats, h.singleFile,
    h.checkHash]

theorem workDirFrom_eq (homes : Homes) (root : Path) :
    s'.workDirFrom homes root = s.workDirFrom homes root := by
  simp only [workDirFrom, h.workDir]

end LinterSettings.SameFingerprint

/-! ### Outcomes and what they tell of a run -/

/-- Every outcome of a run goes back to the target of its linter. -/
theorem FileTree.traced_outcomes (setup : RunSetup σ) (options : RunOptions) (c : Config)
    (t : FileTree) (x : σ) {outcomes : List Outcome}
    (h : (t.run setup options c x).outcomes = .ok outcomes) :
    ∃ skipped first, List.Forall₂ (fun s o => ∃ target slot,
      t.Aims setup.digest setup.homes c.root s target ∧
        Slot.Traces (setup.terms (options.jobCount c) c skipped) first
          (t.run setup options c x).state.log target slot ∧ slot.result = .ok o)
      c.linters outcomes := by
  cases hprepare : t.prepare setup.digest setup.homes (options.jobCount c) c with
  | error e => simp [run, hprepare] at h
  | ok found =>
    obtain ⟨targets, cacheDir, skipped⟩ := found
    have haims := (prepare_spec hprepare).1
    have hr := run_eq setup options c t x hprepare
    dsimp only at hr
    let first : RunState σ := ⟨t, x, options.storeFor c cacheDir, []⟩
    obtain ⟨opening, -, htraced⟩ :=
      traced_finalPool setup (options.jobCount c) c skipped targets first
    -- All that counts from here on is that the slots of this pool are accounted for.
    generalize finalPool setup (options.jobCount c) c skipped targets first = p at *
    rw [hr] at h ⊢
    obtain ⟨-, hleft, hresults⟩ := Pool.forall₂_of_outcomes h
    obtain ⟨looked, htargets, hslots⟩ := htraced.slots
    obtain rfl : targets = looked := by rw [htargets, hleft, List.append_nil]
    have hlog : ∀ e ∈ p.state.log, e ∈ (p.state.say p.closing).log := fun e he =>
      List.mem_append_left _ he
    have htargets : List.Forall₂ (fun target o => ∃ slot : Slot,
        slot.Traces (setup.terms (options.jobCount c) c skipped) (first.say [opening])
          (p.state.say p.closing).log target ∧ slot.result = .ok o) targets outcomes :=
      forall₂_comp hslots hresults fun _ slot _ htrace hresult =>
        ⟨slot, htrace.mono hlog, hresult⟩
    refine ⟨skipped, first.say [opening], forall₂_comp haims htargets ?_⟩
    rintro _ target _ haim ⟨slot, htrace, hresult⟩
    exact ⟨target, slot, haim, htrace, hresult⟩

namespace Slot.Traces

variable {terms : Terms σ} {first : RunState σ} {log : List Event} {target : Target} {slot : Slot}
  {o : Outcome}

/-- A linter that was neither skipped nor spared was called with its files. -/
theorem called_of_ran (h : slot.Traces terms first log target) (hresult : slot.result = .ok o)
    (hskipped : o.status ≠ .skipped) (hcached : o.status ≠ .cached) :
    Job.call ⟨target, o.files⟩ ∈ Event.calls log := by
  cases slot with
  | idle o' =>
    obtain rfl : o' = o := Except.ok.inj hresult
    obtain ⟨s, -, hfound⟩ := h.found
    cases hfound with
    | nothing => exact absurd rfl hskipped
    | spared => exact absurd rfl hcached
  | job j progress =>
    obtain rfl := h.target_eq
    have hcalled := h.called j progress rfl
    cases progress with
    | ended ended =>
      obtain rfl : ended = .ok o := hresult
      obtain ⟨world, before, t, hmem, hends⟩ := hcalled
      -- Its outcome tells the files that it was called with.
      rw [hends.delivers.files]
      exact List.mem_filterMap.mpr ⟨_, hmem, rfl⟩
    | _ => exact nomatch hresult

/-- A linter that was spared has files, and in the store there was the record of a success with its
fingerprint. -/
theorem recorded_of_cached (h : slot.Traces terms first log target) (hresult : slot.result = .ok o)
    (hcached : o.status = .cached) : o.files ≠ [] ∧ ∃ s r,
      RunState.Acts terms.digest terms.runner first s ∧
      s.store.load terms.digest s.tree target.name = .ok (some r) ∧ r.succeeded ∧
      r.fingerprint = target.fingerprint := by
  obtain ⟨s, hacts, hdecided⟩ := h.decided hresult
  have hfiles : o.files ≠ [] := fun hempty => by simp [hdecided.skipped hempty] at hcached
  -- Only the verdict that nothing has changed spares a linter.
  obtain ⟨v, hverdict, hiff⟩ := hdecided.verdict hfiles
  obtain rfl := hiff.mp hcached
  obtain ⟨r, hload, hunchanged⟩ := CacheStore.verdict_eq_unchanged_iff.mp hverdict
  obtain ⟨hsucceeded, hfingerprint, -⟩ := CacheStore.verdictOf_eq_unchanged_iff.mp hunchanged
  exact ⟨hfiles, s, r, hacts, hload, hsucceeded, hfingerprint⟩

end Slot.Traces

/-! ### Calls -/

/-- Calls of one linter with settings of one fingerprint, on the same files, pass the same files
exactly if both settings say which files to include, or none does. -/
theorem Job.arguments_eq_iff {j j' : Job} (hfiles : j'.files = j.files) (hne : j.files ≠ []) :
    j'.arguments = j.arguments ↔
      (j'.target.settings.includes = [] ↔ j.target.settings.includes = []) := by
  have harguments : ∀ j : Job,
      j.arguments = if j.target.settings.includes = [] then [] else j.files := by
    intro j
    unfold arguments LinterSettings.passesFiles
    by_cases hincludes : j.target.settings.includes = [] <;> simp [hincludes]
  rw [harguments, harguments, hfiles]
  by_cases h : j.target.settings.includes = [] <;>
    by_cases h' : j'.target.settings.includes = [] <;> simp [h, h', hne, hne.symm]

/-- A run of one linter on the tree with one file, with a store to ask for. -/
def Sample.pass (store : Option CacheStore) (s : LinterSettings) : RunResult Unit :=
  Sample.tree.run (Sample.passingSetup inOrder) (Sample.options store) (Sample.config false [s]) ()

/-- A store that knows another linter only. -/
def Sample.started : CacheStore := .memory [("z", .failed "z" "")]

/-- That store after the linter `a` has passed on the file of that tree. -/
def Sample.saved : CacheStore :=
  .memory [("z", .failed "z" ""), ("a", ⟨"a", "", "", 1, none, true⟩)]

namespace FileTree

/-- An outcome of a run belongs to the linter of its name. -/
theorem exists_traces_of_mem (setup : RunSetup σ) (options : RunOptions) (c : Config) (t : FileTree)
    (x : σ) {outcomes : List Outcome} (h : (t.run setup options c x).outcomes = .ok outcomes)
    (hnames : (c.linters.map (·.name)).Nodup) {s : LinterSettings} (hs : s ∈ c.linters)
    {o : Outcome} (ho : o ∈ outcomes) (hprogram : o.program = s.name) :
    ∃ skipped first target slot, t.Aims setup.digest setup.homes c.root s target ∧
      Slot.Traces (setup.terms (options.jobCount c) c skipped) first
        (t.run setup options c x).state.log target slot ∧ slot.result = .ok o := by
  obtain ⟨skipped, first, htraced⟩ := traced_outcomes setup options c t x h
  obtain ⟨s', hs', target, slot, haim, htrace, hresult⟩ := exists_of_mem_forall₂ htraced ho
  have hname : s'.name = s.name := by
    rw [← hprogram, htrace.program hresult, Target.name, haim.settings]
  obtain rfl : s' = s := List.inj_on_of_nodup_map hnames hs' hs hname
  exact ⟨skipped, first, target, slot, haim, htrace, hresult⟩

/-- A linter passes in a run, and in the next one it is spared, with settings of the same
fingerprint and with the same files. Then the call that is saved is the one that was recorded, but
for its files and the time it may take, and there was a record of a success with its fingerprint.
The files are the same as well exactly if both settings say which files to include, or none does. -/
theorem cached_arguments_exact (setup : RunSetup σ) (options options' : RunOptions) (c c' : Config)
    (t : FileTree) (x : σ) {s s' : LinterSettings} {outcomes outcomes' : List Outcome}
    {o o' : Outcome} (hroot : c'.root = c.root) (hsame : s.SameFingerprint s')
    (hs : s ∈ c.linters) (hs' : s' ∈ c'.linters) (hnames : (c.linters.map (·.name)).Nodup)
    (hnames' : (c'.linters.map (·.name)).Nodup)
    (hfirst : (t.run setup options c x).outcomes = .ok outcomes)
    (hsecond : ((t.run setup options c x).state.tree.run setup options' c'
      (t.run setup options c x).state.runner).outcomes = .ok outcomes')
    (ho : o ∈ outcomes) (hprogram : o.program = s.name) (hok : o.status = .ok)
    (ho' : o' ∈ outcomes') (hprogram' : o'.program = s'.name) (hcached : o'.status = .cached)
    (hfiles : o'.files = o.files) :
    ∃ target target', t.Aims setup.digest setup.homes c.root s target ∧
      (t.run setup options c x).state.tree.Aims setup.digest setup.homes c'.root s' target' ∧
      (∃ store u r, CacheStore.load setup.digest u s'.name store = .ok (some r) ∧ r.succeeded ∧
        r.fingerprint = target'.fingerprint) ∧
      ((t.run setup options c x).state.tree.realPath target.workDir = t.realPath target.workDir →
        target'.fingerprint = target.fingerprint) ∧
      let recorded : RunCall := Job.call ⟨target, o.files⟩
      let saved : RunCall := Job.call ⟨target', o'.files⟩
      recorded ∈ Event.calls (t.run setup options c x).state.log ∧
      { saved with files := recorded.files, timeout := recorded.timeout } = recorded ∧
      (saved.files = recorded.files ↔ (s'.includes = [] ↔ s.includes = [])) := by
  obtain ⟨_, _, target, slot, haim, htrace, hresult⟩ :=
    exists_traces_of_mem setup options c t x hfirst hnames hs ho hprogram
  obtain ⟨_, _, target', slot', haim', htrace', hresult'⟩ :=
    exists_traces_of_mem setup options' c' _ _ hsecond hnames' hs' ho' hprogram'
  have hcalled := htrace.called_of_ran hresult (by simp [hok]) (by simp [hok])
  obtain ⟨hne, u, r, -, hload, hsucceeded, hfingerprint⟩ :=
    htrace'.recorded_of_cached hresult' hcached
  have hname : target'.name = s'.name := congrArg LinterSettings.name haim'.settings
  rw [hname] at hload
  -- Working directories are taken from the root of the configuration, which is one for both runs.
  have hworkDir : target'.workDir = target.workDir := by
    have hfrom := haim'.workDir
    rw [hroot, hsame.workDirFrom_eq, haim.workDir] at hfrom
    exact (Except.ok.inj hfrom).symm
  refine ⟨target, target', haim, haim', ⟨u.store, u.tree, r, hload, hsucceeded, hfingerprint⟩,
    fun hreal => ?_, hcalled, ?_, ?_⟩
  · have heq := haim'.fingerprint
    simp only [fingerprint, hworkDir, hreal, hsame.fingerprintStream_eq] at heq
    exact Except.ok.inj (heq.symm.trans haim.fingerprint)
  · simp only [Job.call, haim.settings, haim'.settings, hworkDir, hsame.command, hsame.options,
      hsame.singleFile]
  · rw [← haim.settings, ← haim'.settings]
    exact Job.arguments_eq_iff hfiles (hfiles ▸ hne)

/-- The linter enters nested checkouts in the next run, and is spared. The call that is saved is the
one that was made. -/
theorem cached_arguments_exact_checkouts :
    ∃ target target', target'.settings.excludeSubmodules ∧ ¬ target.settings.excludeSubmodules ∧
      Job.call ⟨target, ["x"]⟩ ∈ Event.calls (Sample.pass (some Sample.started)
        (Sample.linter "a" "/x")).state.log ∧
      (Job.call ⟨target', ["x"]⟩).files = (Job.call ⟨target, ["x"]⟩).files := by
  have hfirst : (Sample.pass (some Sample.started) (Sample.linter "a" "/x")).outcomes = .ok
      [{ program := "a", status := .ok, exitStatus := some 0, output := "", lines := []
         error := none, files := ["x"], modified := [] }] := by
    cbv
  have htree : (Sample.pass (some Sample.started) (Sample.linter "a" "/x")).state.tree =
      Sample.tree := by
    cbv
  have hsecond : ((Sample.pass (some Sample.started) (Sample.linter "a" "/x")).state.tree.run
      (Sample.passingSetup inOrder) (Sample.options (some Sample.saved)) (Sample.config false
        [{ Sample.linter "a" "/x" with excludeSubmodules := true }]) ()).outcomes =
          .ok [.idle "a" .cached ["x"]] := by
    rw [htree]
    cbv
  have hsame : (Sample.linter "a" "/x").SameFingerprint
      { Sample.linter "a" "/x" with excludeSubmodules := true } :=
    ⟨rfl, rfl, rfl, rfl, rfl, rfl, rfl⟩
  obtain ⟨target, target', haim, haim', -, -, hcalled, -, hfiles⟩ := cached_arguments_exact
    (Sample.passingSetup inOrder) (Sample.options (some Sample.started))
    (Sample.options (some Sample.saved)) (Sample.config false [Sample.linter "a" "/x"])
    (Sample.config false [{ Sample.linter "a" "/x" with excludeSubmodules := true }])
    Sample.tree () rfl hsame List.mem_cons_self List.mem_cons_self (by decide) (by decide) hfirst
    hsecond List.mem_cons_self rfl rfl List.mem_cons_self rfl rfl rfl
  refine ⟨target, target', ?_, ?_, hcalled, hfiles.mpr Iff.rfl⟩
  · rw [haim'.settings]
  · rw [haim.settings]
    decide

/-- The linter has no patterns in the first run, and is called without files. In the next one it has
a pattern, a blank one that leaves the selection as it is. It is spared, though it would be called
with a file. -/
theorem cached_arguments_differ :
    (Sample.pass (some Sample.started) (Sample.linter "a" "/x")).outcomes.map
        (·.map fun o => (o.status, o.files)) = .ok [(.ok, ["x"])] ∧
      (Event.calls (Sample.pass (some Sample.started) (Sample.linter "a" "/x")).state.log).map
        (·.files) = [[]] ∧
      (Sample.pass (Sample.pass (some Sample.started) (Sample.linter "a" "/x")).store
          { Sample.linter "a" "/x" with includes := [" "] }).outcomes.map
        (·.map fun o => (o.status, o.files)) = .ok [(.cached, ["x"])] ∧
      (Event.calls (Sample.pass none
        { Sample.linter "a" "/x" with includes := [" "] }).state.log).map (·.files) = [["x"]] := by
  refine ⟨?_, ?_, ?_, ?_⟩
  · cbv
  · cbv
  · cbv
  · cbv

end FileTree

end LinterSuite
