import LinterSuite.CommandLine
import LinterSuite.Proofs.Run.Reports
import LinterSuite.Proofs.Run.Samples
import LinterSuite.Proofs.Run.Targets
import LinterSuite.Proofs.Run.Traces

/-!
# Which store a run uses

A run consults one store and saves its records there. It is the store that is asked for if there is
something in it, and then nothing else is consulted or written. A store in memory with nothing in
it is passed over, however: the run is the one that would be made if no store were asked for. This
is why the option to do without a cache has no effect.

## Main definitions

* `Outcome.DecidedBy`: an outcome that the store of a state decided on
* `RunResult.Uses`: a run that uses a store and no other

## Main results

* `RunState.Acts.memory`: with a store in memory, files change by commands only
* `FileTree.uses_storeFor`: a run uses the store that its options come to
* `FileTree.explicit_store_exact`: when the store that is asked for is the one that is used
* `CommandLine.lint_noCache`: the option to do without a cache has no effect
-/

namespace LinterSuite

variable {σ : Type}

/-! ### Using a store -/

/-- An outcome that the store of a state decided on: a linter without files is skipped, and one with
files is spared exactly if the verdict of the store is that nothing has changed. -/
structure Outcome.DecidedBy (digest : Digest) (s : RunState σ) (target : Target) (o : Outcome) :
    Prop where
  program : o.program = target.name
  skipped : o.files = [] → o.status = .skipped
  verdict : o.files ≠ [] → ∃ v, s.store.verdict digest s.tree target.name
    (Job.paths ⟨target, o.files⟩) target.settings.checkHash target.fingerprint = .ok v ∧
      (o.status = .cached ↔ v = .unchanged)

/-- A run that uses a store and no other. It starts with that store, and acts on the store of its
state only; every outcome that it reports was decided on by the store of a state that it passed
through. If the store is in memory, files change by commands only. -/
structure RunResult.Uses (setup : RunSetup σ) (store : CacheStore) (t : FileTree) (x : σ)
    (r : RunResult σ) : Prop where
  acts : ∃ s report, RunState.Acts setup.digest setup.runner ⟨t, x, store, []⟩ s ∧
    r.state = s.say report
  decided : ∀ o, .finished o ∈ r.state.log → ∃ s target,
    RunState.Acts setup.digest setup.runner ⟨t, x, store, []⟩ s ∧ o.DecidedBy setup.digest s target
  frame : ∀ records, store = .memory records → ∀ P : FileTree → Prop,
    (∀ call u y, P u → P (setup.runner call (u, y)).2.1) → P t → P r.state.tree

/-- What a slot comes to was decided on by the store of a state that the run passed through. -/
theorem Slot.Traces.decided {terms : Terms σ} {first : RunState σ} {log : List Event}
    {target : Target} {slot : Slot} {o : Outcome} (h : slot.Traces terms first log target)
    (hresult : slot.result = .ok o) :
    ∃ s, RunState.Acts terms.digest terms.runner first s ∧ o.DecidedBy terms.digest s target := by
  obtain ⟨s, hacts, hfound⟩ := h.found
  refine ⟨s, hacts, ?_⟩
  cases slot with
  | idle o' =>
    obtain rfl : o' = o := Except.ok.inj hresult
    cases hfound with
    | nothing => exact ⟨rfl, fun _ => rfl, fun hne => absurd rfl hne⟩
    | spared _ nonempty verdict =>
      exact ⟨rfl, fun hempty => absurd hempty nonempty,
        fun _ => ⟨_, verdict, by simp [Outcome.idle]⟩⟩
  | job j progress =>
    have hcalled := h.called j progress rfl
    cases progress with
    | ended ended =>
      obtain rfl : ended = .ok o := hresult
      obtain ⟨_, _, _, -, hends⟩ := hcalled
      have hdelivers := hends.delivers
      cases hfound with
      | @due _ v _ nonempty verdict mustRun =>
        have hfiles := hdelivers.files
        refine ⟨hdelivers.program, fun hempty => absurd (hfiles.symm.trans hempty) nonempty,
          fun _ => ?_⟩
        rw [hfiles]
        -- A job that was run is not spared.
        exact ⟨v, verdict, iff_of_false hdelivers.status.2 mustRun⟩
    | _ => exact nomatch hresult

/-- With a store in memory, files change by commands only. -/
theorem RunState.Acts.memory {digest : Digest} {runner : Runner σ} {s s' : RunState σ}
    (h : Acts digest runner s s') {records : List (String × RunRecord)}
    (hmemory : s.store = .memory records) {P : FileTree → Prop}
    (hrunner : ∀ call u y, P u → P (runner call (u, y)).2.1) (hP : P s.tree) :
    (∃ records', s'.store = .memory records') ∧ P s'.tree := by
  induction h with
  | refl => exact ⟨⟨records, hmemory⟩, hP⟩
  | tail _ hact ih =>
    obtain ⟨⟨records', hstore⟩, hP'⟩ := ih
    cases hact with
    | say => exact ⟨⟨records', hstore⟩, hP'⟩
    | call => exact ⟨⟨records', hstore⟩, hrunner _ _ _ hP'⟩
    | save r =>
      rw [afterSave, hstore]
      exact ⟨⟨_, rfl⟩, hP'⟩

namespace FileTree

variable (setup : RunSetup σ) (options : RunOptions) (c : Config) (t : FileTree) (x : σ)

/-- A run uses the store that its options come to. -/
theorem uses_storeFor {targets : List Target} {cacheDir skipped : Path}
    (h : t.prepare setup.digest setup.homes (options.jobCount c) c =
      .ok (targets, cacheDir, skipped)) :
    (t.run setup options c x).Uses setup (options.storeFor c cacheDir) t x := by
  rw [run_eq setup options c t x h]
  obtain ⟨opening, haside, htraced⟩ := traced_finalPool setup (options.jobCount c) c skipped targets
    ⟨t, x, options.storeFor c cacheDir, []⟩
  have hlog : Event.Quiet (finalPool setup (options.jobCount c) c skipped targets
      ⟨t, x, options.storeFor c cacheDir, []⟩).state.log := quiet_finalPool setup _ _ _ _ _ rfl
  generalize finalPool setup (options.jobCount c) c skipped targets
    ⟨t, x, options.storeFor c cacheDir, []⟩ = p at *
  -- Saying that the run begins is the first act.
  have hopening : RunState.Acts setup.digest setup.runner
      ⟨t, x, options.storeFor c cacheDir, []⟩
      (RunState.say ⟨t, x, options.storeFor c cacheDir, []⟩ [opening]) := .single (.say _ haside)
  have hacts := hopening.trans htraced.acts
  refine ⟨⟨_, _, hacts, rfl⟩, ?_, ?_⟩
  · intro o ho
    have hclosing : .finished o ∈ p.closing := by
      rcases List.mem_append.mp ho with ho | ho
      · -- No turn marks progress.
        have hmem := Event.mem_milestones_of_finished.mpr ho
        rw [hlog] at hmem
        exact absurd hmem List.not_mem_nil
      · exact ho
    obtain ⟨slot, hslot, hresult⟩ := Pool.exists_slot_of_closing hclosing
    obtain ⟨looked, -, hslots⟩ := htraced.slots
    obtain ⟨target, -, htrace⟩ := exists_of_mem_forall₂ hslots hslot
    obtain ⟨s, hs, hdecided⟩ := htrace.decided hresult
    exact ⟨s, target, hopening.trans hs, hdecided⟩
  · intro records hrecords P hrunner hP
    exact (RunState.Acts.memory hacts hrecords hrunner hP).2

/-- A run that is refused uses no store at all. -/
theorem uses_of_refused {e : RunFailure}
    (h : t.prepare setup.digest setup.homes (options.jobCount c) c = .error e) (store : CacheStore)
    (hstore : options.store.getD (.memory []) = store) :
    (t.run setup options c x).Uses setup store t x := by
  have hrun : (t.run setup options c x).state = ⟨t, x, store, []⟩ := by
    simp only [run, h, hstore]
  refine ⟨⟨_, [], .refl, by rw [hrun, RunState.say_nil]⟩, ?_, ?_⟩
  · intro o ho
    rw [hrun] at ho
    exact absurd ho List.not_mem_nil
  · intro records _ P _ hP
    rwa [hrun]

/-- A store in memory with nothing in it is passed over: the run is the one without a store to ask
for. -/
theorem run_empty_store : t.run setup { options with store := some (.memory []) } c x =
    { t.run setup { options with store := none } c x with store := some (.memory []) } := by
  simp only [run]
  have hjobs : ({ options with store := some (.memory []) } : RunOptions).jobCount c =
      ({ options with store := none } : RunOptions).jobCount c := rfl
  rw [hjobs]
  cases t.prepare setup.digest setup.homes
    (({ options with store := none } : RunOptions).jobCount c) c with
  | error e => rfl
  | ok found => rfl

/-- The store that is asked for is the one of a run if there is something in it, or if the
configuration keeps no cache either. -/
theorem storeFor_eq {store : CacheStore} (cacheDir : Path)
    (h : store.isEmptyMemory = false ∨ c.globals.cache = false) :
    { options with store := some store }.storeFor c cacheDir = store := by
  cases store with
  | directory dir => rfl
  | memory records =>
    cases records with
    | cons e records => rfl
    | nil =>
      -- Without a cache the store of the configuration has nothing in it.
      have hcache : c.globals.cache = false := h.resolve_left (by simp [CacheStore.isEmptyMemory])
      rw [RunOptions.storeFor_empty]
      simp [RunOptions.storeFor, Config.ownStore, hcache]

end FileTree

/-- The option to do without a cache has no effect: it asks for a store with nothing in it. -/
theorem CommandLine.lint_noCache (around : Surroundings σ) (options : Options) (t : FileTree)
    (x : σ) :
    lint around { options with noCache := true } t x =
      lint around { options with noCache := false } t x := by
  have hrun : ∀ events c, runConfig around { options with noCache := true } events c t x =
      runConfig around { options with noCache := false } events c t x := by
    intro events c
    have hempty := t.run_empty_store around.setup
      { jobs := options.jobs, usualJobs := around.usualJobs, store := none } c x
    simp only [runConfig, if_true, Bool.false_eq_true, if_false]
    rw [hempty]
    rfl
  unfold lint
  simp only [hrun]
  rfl

namespace FileTree

variable (setup : RunSetup σ) (options : RunOptions) (c : Config) (t : FileTree) (x : σ)

/-- A store that is asked for is the one that is used if there is something in it, or if the
configuration keeps no cache. Otherwise the run is the one without a store to ask for, and so the
option to do without a cache has no effect. -/
theorem explicit_store_exact (store : CacheStore) :
    let r := t.run setup { options with store := some store } c x
    (store.isEmptyMemory = false ∨ c.globals.cache = false → r.Uses setup store t x) ∧
    (store.isEmptyMemory = true →
      r = { t.run setup { options with store := none } c x with store := some store }) ∧
    ∀ (around : CommandLine.Surroundings σ) (asked : CommandLine.Options),
      CommandLine.lint around { asked with noCache := true } t x =
        CommandLine.lint around { asked with noCache := false } t x := by
  refine ⟨?_, ?_, fun around asked => CommandLine.lint_noCache around asked t x⟩
  · intro hused
    cases hprepare : t.prepare setup.digest setup.homes (options.jobCount c) c with
    | error e =>
      exact uses_of_refused setup { options with store := some store } c t x hprepare _ rfl
    | ok found =>
      obtain ⟨targets, cacheDir, skipped⟩ := found
      have huses := uses_storeFor setup { options with store := some store } c t x hprepare
      rwa [storeFor_eq options c cacheDir hused] at huses
  · intro hempty
    cases store with
    | directory dir => simp [CacheStore.isEmptyMemory] at hempty
    | memory records =>
      obtain rfl : records = [] := by simpa [CacheStore.isEmptyMemory] using hempty
      exact run_empty_store setup options c t x

/-- A store with a record of another linter is the one that is used, whatever the entry on disk. -/
theorem explicit_store_exact_one_record :
    ((Sample.treeWithEntry [255]).run Sample.setup
        (Sample.options (some (.memory [("z", .failed "z" "")])))
        (Sample.config true [Sample.linter "b" "/x"]) ()).Uses Sample.setup
          (.memory [("z", .failed "z" "")]) (Sample.treeWithEntry [255]) () ∧
      ((Sample.treeWithEntry [255]).run Sample.setup
        (Sample.options (some (.memory [("z", .failed "z" "")])))
        (Sample.config true [Sample.linter "b" "/x"]) ()).outcomes.map (·.map (·.status)) =
          .ok [.ok] := by
  constructor
  · exact (explicit_store_exact Sample.setup (Sample.options none)
      (Sample.config true [Sample.linter "b" "/x"]) (Sample.treeWithEntry [255]) ()
      (.memory [("z", .failed "z" "")])).1 (.inl rfl)
  · cbv

/-- A store without records is passed over: the entry on disk, which is no text, ends the run. -/
theorem explicit_empty_store_passed_over :
    ((Sample.treeWithEntry [255]).run Sample.setup (Sample.options (some (.memory [])))
      (Sample.config true [Sample.linter "b" "/x"]) ()).outcomes = .error (.entry .notText) := by
  cbv

end FileTree

end LinterSuite
