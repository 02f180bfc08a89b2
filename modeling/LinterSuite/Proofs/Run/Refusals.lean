import LinterSuite.Proofs.Glob.Coverage
import LinterSuite.Proofs.Run.Calls
import LinterSuite.Proofs.Run.Samples
import LinterSuite.Proofs.Run.Targets

/-!
# Configurations that cannot be run

Every linter of a configuration must be fit to be run, and its patterns must be readable. A run of
other configurations has no outcomes and reports nothing. But only formats and directories are
checked for all linters before anything is done. A pattern is read when the files of its linter are
looked for, and by then the linters before it may have been run.

## Main definitions

* `LinterSettings.Unfit`, `LinterSettings.Misread`: what can be wrong with a linter
* `RunResult.IsUntouched`: a run that has done nothing
* `RunSetup.RefusesAtOnce`: a fault that is found before anything is done

## Main results

* `Pool.looked_of_misread`: no target from the faulty one on gets a slot
* `FileTree.untouched_iff`: a run has done nothing exactly if it is refused at once
* `FileTree.faulty_run_exact`: what a run of a faulty configuration comes to
* `FileTree.runs_before_misread`: a linter is run although the pattern of the next one is unreadable
-/

namespace LinterSuite

variable {σ : Type}

/-! ### Faulty linters -/

/-- A linter that is not fit to be run: its formats cannot be read, or what it names as its
directory is none. -/
inductive LinterSettings.Unfit (homes : Homes) (root : Path) (t : FileTree) (s : LinterSettings) :
    Prop
  | formats {e : GrammarError} (unread : Grammar.compileAll s.formats = .error e)
  | directory {p : Path} (named : s.workDirFrom homes root = .ok p) (noDir : t.isDir p = false)

/-- A linter with a pattern that cannot be read, be it its own or one that is excluded for all. -/
def LinterSettings.Misread (globalExcludes : List String) (s : LinterSettings) : Prop :=
  ∃ source ∈ s.includes ++ globalExcludes ++ s.excludes, ∃ e, Glob.compile source = .error e

namespace FileTree

variable {t : FileTree} {s : LinterSettings}

theorem Aims.not_unfit {digest : Digest} {homes : Homes} {root : Path} {target : Target}
    (h : t.Aims digest homes root s target) : ¬ s.Unfit homes root t := by
  rintro (⟨unread⟩ | ⟨named, noDir⟩)
  · exact nomatch h.grammars.symm.trans unread
  · obtain rfl := Except.ok.inj (h.workDir.symm.trans named)
    exact absurd h.isDir (by simp [noDir])

/-- Without its patterns no files are selected for a linter, whatever files there are. -/
theorem select_of_misread {globalExcludes : List String} (h : s.Misread globalExcludes)
    (skipped : List Path) (workDir : Path) :
    ∃ e, t.select skipped s workDir globalExcludes = .error (.badGlob e) := by
  obtain ⟨source, hsource, e, hcompile⟩ := h
  unfold select
  cases hincludes : Glob.compileAll s.includes with
  | error e' => exact ⟨e', rfl⟩
  | ok includes =>
    cases hexcludes : Glob.compileAll (globalExcludes ++ s.excludes) with
    | error e' => exact ⟨e', rfl⟩
    | ok excludes =>
      -- If both lists can be read, then so can every pattern in them, and this one cannot.
      rw [List.append_assoc] at hsource
      obtain ⟨g, hg⟩ : ∃ g, Glob.compile source = .ok g :=
        (List.mem_append.mp hsource).elim (Glob.exists_compile_of_mem hincludes)
          (Glob.exists_compile_of_mem hexcludes)
      exact nomatch hg.symm.trans hcompile

/-- Among the targets of some linters, the target of one of them stands where it stands. -/
theorem split_aims {digest : Digest} {homes : Homes} {root : Path}
    {before after : List LinterSettings} {targets : List Target}
    (h : List.Forall₂ (t.Aims digest homes root) (before ++ s :: after) targets) :
    ∃ first target last, targets = first ++ target :: last ∧
      List.Forall₂ (t.Aims digest homes root) before first ∧ t.Aims digest homes root s target := by
  have hfirst := List.forall₂_take_append _ _ _ h.flip
  have hrest := List.forall₂_drop_append _ _ _ h.flip
  obtain ⟨target, last, haim, -, hlast⟩ := List.forall₂_cons_right_iff.mp hrest
  refine ⟨targets.take before.length, target, last, ?_, hfirst.flip, haim⟩
  rw [← hlast, List.take_append_drop]

/-- A configuration with a linter that is not fit to be run is not prepared. -/
theorem prepare_of_unfit {homes : Homes} {c : Config} (hs : s ∈ c.linters)
    (h : s.Unfit homes c.root t) (digest : Digest) (jobCount : Int) :
    ∃ e, t.prepare digest homes jobCount c = .error e := by
  cases hprepare : t.prepare digest homes jobCount c with
  | error e => exact ⟨e, rfl⟩
  | ok found =>
    obtain ⟨targets, cacheDir, skipped⟩ := found
    have haims := (prepare_eq_ok_iff.mp hprepare).1
    obtain ⟨target, -, haim⟩ := exists_of_mem_forall₂ haims.flip hs
    exact absurd h haim.not_unfit

end FileTree

/-! ### Targets that are not looked at -/

/-- What was called is the call of a job. -/
theorem Slot.eq_job_of_called? {slot : Slot} {call : RunCall} (h : slot.called? = some call) :
    ∃ j progress, slot = .job j progress ∧ j.call = call := by
  rcases slot with o | ⟨j, _ | _ | _ | _⟩
  · exact nomatch h
  · exact nomatch h
  · exact nomatch h
  · exact ⟨j, _, rfl, Option.some.inj h⟩
  · exact ⟨j, _, rfl, Option.some.inj h⟩

namespace Pool

variable {terms : Terms σ} {first : RunState σ} {p : Pool σ}

/-- A complete schedule leaves a target behind only if something is wrong with one. Then there are
no outcomes, and nothing is reported. -/
theorem refused_of_left {targets : List Target} {schedule : List Turn}
    (h : Turn.Completes targets.length schedule)
    (hleft : ((fresh targets first).run terms schedule).left ≠ []) :
    (∃ e, ((fresh targets first).run terms schedule).outcomes = .error e) ∧
      ((fresh targets first).run terms schedule).closing = [] := by
  cases hfailure : ((fresh targets first).run terms schedule).failure with
  | none => exact absurd (left_eq_nil_of_completes h hfailure) hleft
  | some e =>
    unfold outcomes closing
    rw [hfailure]
    exact ⟨⟨e, rfl⟩, rfl⟩

/-- No target from one with an unreadable pattern on gets a slot. -/
theorem looked_of_misread {before after : List Target} {target : Target}
    (h : p.Traced terms first (before ++ target :: after))
    (hfault : target.settings.Misread terms.globalExcludes) :
    ∃ looked rest, before = looked ++ rest ∧ p.left = rest ++ target :: after ∧
      List.Forall₂ (Slot.Traces terms first p.state.log) looked p.slots := by
  obtain ⟨looked, hlooked, hslots⟩ := h.slots
  -- A slot goes back to a selection of files, and for this target there is none.
  have hnot : target ∉ looked := by
    intro hmem
    obtain ⟨slot, -, htrace⟩ := exists_of_mem_forall₂ hslots.flip hmem
    obtain ⟨s, -, hfound⟩ := htrace.found
    obtain ⟨e, he⟩ := FileTree.select_of_misread (t := s.tree) hfault terms.skipped target.workDir
    generalize slot.start = start at hfound
    cases hfound with
    | nothing select | spared select | due select => exact nomatch select.symm.trans he
  -- So those that were looked at end somewhere before it.
  rcases List.append_eq_append_iff.mp hlooked with ⟨rest, rfl, hleft⟩ | ⟨rest, rfl, hleft⟩
  · cases rest with
    | nil => exact ⟨before, [], by simp, by simpa using hleft.symm, by simpa using hslots⟩
    | cons other rest =>
      obtain ⟨rfl, -⟩ := List.cons.inj hleft
      exact absurd (by simp) hnot
  · exact ⟨looked, rest, rfl, hleft, hslots⟩

end Pool

/-! ### Runs that have done nothing -/

/-- A run that has done nothing: its log holds notes only, so nothing was selected, called or
reported, and the files, the store and the state of the runner are as they were. -/
structure RunResult.IsUntouched (r : RunResult σ) (options : RunOptions) (t : FileTree) (x : σ) :
    Prop where
  log : ∀ e ∈ r.state.log, ∃ topic text, e = .noted topic text
  tree : r.state.tree = t
  runner : r.state.runner = x
  store : r.store = options.store

theorem RunResult.IsUntouched.selections {r : RunResult σ} {options : RunOptions} {t : FileTree}
    {x : σ} (h : r.IsUntouched options t x) : Event.selections r.state.log = [] := by
  refine List.filterMap_eq_nil_iff.mpr fun e he => ?_
  obtain ⟨topic, text, rfl⟩ := h.log e he
  rfl

/-- A fault that is found before anything is done: some linter is not fit to be run, or else no
files can be selected for the first one. -/
inductive RunSetup.RefusesAtOnce (setup : RunSetup σ) (options : RunOptions) (c : Config)
    (t : FileTree) : Prop
  | unprepared {e : RunFailure}
      (prepare : t.prepare setup.digest setup.homes (options.jobCount c) c = .error e)
  | unselected {target : Target} {rest : List Target} {cacheDir skipped : Path} {e : SelectionError}
      (prepare : t.prepare setup.digest setup.homes (options.jobCount c) c =
        .ok (target :: rest, cacheDir, skipped))
      (select : t.select [skipped] target.settings target.workDir c.globals.excludes = .error e)

/-- The selection for a target is let known, whatever is found out about it afterwards. -/
theorem FileTree.selected_mem_slot {digest : Digest} {t : FileTree} {store : CacheStore}
    {skipped : List Path} {globalExcludes : List String} {target : Target} {selection : Selection}
    (h : t.select skipped target.settings target.workDir globalExcludes = .ok selection) :
    .selected target.name selection.files.length ∈
      (t.slot digest store skipped globalExcludes target).1 := by
  have hselected : .selected target.name selection.files.length ∈ selection.events target := by
    simp [Selection.events]
  unfold slot
  rw [h]
  dsimp only
  split
  · exact List.mem_append_left _ hselected
  · split
    · exact hselected
    · exact List.mem_append_left _ hselected

namespace Pool

variable {terms : Terms σ} {target : Target} {rest : List Target} {s : RunState σ} {p : Pool σ}

/-- A target for which no files can be selected is refused without a word. -/
theorem slotOf_of_unselected {e : SelectionError} (h : p.state.tree.select terms.skipped
      target.settings target.workDir terms.globalExcludes = .error e) :
    p.slotOf terms target = ([], .error e.toRunFailure) := by
  unfold slotOf FileTree.slot
  rw [h]

theorem turn_of_unselected (terms : Terms σ) (p : Pool σ) (target : Target) (rest : List Target)
    {e : SelectionError} (going : p.failure = none) (next : p.left = target :: rest)
    (h : p.state.tree.select terms.skipped target.settings target.workDir terms.globalExcludes =
      .error e) :
    p.turn terms .dispatch = { p with failure := some e.toRunFailure } := by
  have hslot := slotOf_of_unselected h
  unfold slotOf at hslot
  simp only [turn, dispatch, going, next, hslot, RunState.say_nil]

/-- If no files can be selected for the first target, no turn does anything. -/
theorem run_of_unselected (terms : Terms σ) (rest : List Target) (s : RunState σ)
    {e : SelectionError} (h : s.tree.select terms.skipped target.settings target.workDir
      terms.globalExcludes = .error e) (schedule : List Turn) :
    ((fresh (target :: rest) s).run terms schedule).left = target :: rest ∧
      ((fresh (target :: rest) s).run terms schedule).slots = [] ∧
      ((fresh (target :: rest) s).run terms schedule).state = s := by
  refine run_induction (motive := fun p => p.left = target :: rest ∧ p.slots = [] ∧ p.state = s)
    ⟨rfl, rfl, rfl⟩ ?_ schedule
  rintro p p' hmove ⟨hleft, hslots, rfl⟩
  have hslot : p.slotOf terms target = ([], .error e.toRunFailure) := slotOf_of_unselected h
  cases hmove with
  | rest => exact ⟨hleft, hslots, rfl⟩
  | refuse going next found =>
    obtain ⟨rfl, rfl⟩ := List.cons.inj (hleft.symm.trans next)
    obtain ⟨rfl, -⟩ := Prod.mk.inj (hslot.symm.trans found)
    exact ⟨hleft, hslots, RunState.say_nil _⟩
  | enter going next found =>
    obtain ⟨rfl, rfl⟩ := List.cons.inj (hleft.symm.trans next)
    exact nomatch (Prod.mk.inj (hslot.symm.trans found)).2
  | observe here | call here | settle here => simp [hslots] at here

/-- A pool of which either no turn has done anything, or something is in the log. -/
def Tells (targets : List Target) (s : RunState σ) (told : Event) (p : Pool σ) : Prop :=
  (p.failure = none ∧ p.left = targets ∧ p.slots = [] ∧ p.state = s) ∨ told ∈ p.state.log

/-- The first thing that is done is to let the selection for the first target be known. -/
theorem Moves.tells {p' : Pool σ} {selection : Selection} (h : s.tree.select terms.skipped
      target.settings target.workDir terms.globalExcludes = .ok selection)
    (hmove : Moves terms p p')
    (hp : p.Tells (target :: rest) s (.selected target.name selection.files.length)) :
    p'.Tells (target :: rest) s (.selected target.name selection.files.length) := by
  rcases hp with ⟨hfailure, hleft, hslots, rfl⟩ | hmem
  · have hevents : .selected target.name selection.files.length ∈ (p.slotOf terms target).1 :=
      FileTree.selected_mem_slot h
    cases hmove with
    | rest => exact .inl ⟨hfailure, hleft, hslots, rfl⟩
    | refuse going next found | enter going next found =>
      obtain ⟨rfl, rfl⟩ := List.cons.inj (hleft.symm.trans next)
      rw [found] at hevents
      exact .inr (List.mem_append_right _ hevents)
    | observe here | call here | settle here => simp [hslots] at here
  · obtain ⟨events, hevents, -⟩ := RunState.Acts.log hmove.acts
    exact .inr (hevents ▸ List.mem_append_left _ hmem)

/-- If files are selected for the first target, that is let known. -/
theorem selected_mem_run {selection : Selection} (h : s.tree.select terms.skipped target.settings
      target.workDir terms.globalExcludes = .ok selection) {schedule : List Turn}
    (hcomplete : Turn.Completes (target :: rest).length schedule) :
    .selected target.name selection.files.length ∈
      ((fresh (target :: rest) s).run terms schedule).state.log := by
  have hrun : ((fresh (target :: rest) s).run terms schedule).Tells (target :: rest) s
      (.selected target.name selection.files.length) :=
    run_induction (.inl ⟨rfl, rfl, rfl, rfl⟩) (fun _ _ hmove => hmove.tells h) schedule
  rcases hrun with ⟨hfailure, hleft, -⟩ | hmem
  · exact nomatch hleft.symm.trans (left_eq_nil_of_completes hcomplete hfailure)
  · exact hmem

end Pool

namespace FileTree

variable (setup : RunSetup σ) (options : RunOptions) (c : Config) (t : FileTree) (x : σ)

/-- A run whose targets are found begins with a note. -/
theorem finalPool_eq (jobCount : Int) (skipped : Path) (targets : List Target) (s : RunState σ) :
    ∃ topic text, finalPool setup jobCount c skipped targets s =
      (Pool.fresh targets (s.say [.noted topic text])).run (setup.terms jobCount c skipped)
        (setup.schedule targets.length) :=
  ⟨_, _, rfl⟩

theorem isUntouched_of_refusesAtOnce
    (hcomplete : ∀ count, Turn.Completes count (setup.schedule count))
    (h : setup.RefusesAtOnce options c t) : (t.run setup options c x).IsUntouched options t x := by
  cases h with
  | unprepared prepare =>
    simp only [run, prepare]
    exact ⟨by simp, rfl, rfl, rfl⟩
  | @unselected target rest cacheDir skipped e prepare select =>
    obtain ⟨topic, text, hpool⟩ := finalPool_eq setup c (options.jobCount c) skipped
      (target :: rest) ⟨t, x, options.storeFor c cacheDir, []⟩
    obtain ⟨hleft, -, hstate⟩ := Pool.run_of_unselected (setup.terms (options.jobCount c) c skipped)
      rest (RunState.say ⟨t, x, options.storeFor c cacheDir, []⟩ [.noted topic text]) select
      (setup.schedule (target :: rest).length)
    obtain ⟨-, hclosing⟩ := Pool.refused_of_left (hcomplete (target :: rest).length)
      (hleft.symm ▸ List.cons_ne_nil target rest)
    rw [run_eq setup options c t x prepare, hpool]
    dsimp only
    rw [hstate, hclosing]
    refine ⟨by simp [RunState.say], rfl, rfl, ?_⟩
    cases hstore : options.store with
    | none => rfl
    | some store =>
      -- A store with nothing in it is passed over and stays as it is.
      cases hempty : store.isEmptyMemory <;>
        simp [RunState.say, RunOptions.storeFor, hstore, hempty, Option.filter]

/-- A run for which nothing is selected is refused at once. -/
theorem refusesAtOnce_of_selections
    (hcomplete : ∀ count, Turn.Completes count (setup.schedule count)) (hlinters : c.linters ≠ [])
    (h : Event.selections (t.run setup options c x).state.log = []) :
    setup.RefusesAtOnce options c t := by
  cases hprepare : t.prepare setup.digest setup.homes (options.jobCount c) c with
  | error e => exact .unprepared hprepare
  | ok found =>
    obtain ⟨targets, cacheDir, skipped⟩ := found
    have haims := (prepare_eq_ok_iff.mp hprepare).1
    cases targets with
    | nil => exact absurd (List.forall₂_nil_right_iff.mp haims) hlinters
    | cons target rest =>
      cases hselect : t.select [skipped] target.settings target.workDir c.globals.excludes with
      | error e => exact .unselected hprepare hselect
      | ok selection =>
        obtain ⟨topic, text, hpool⟩ := finalPool_eq setup c (options.jobCount c) skipped
          (target :: rest) ⟨t, x, options.storeFor c cacheDir, []⟩
        -- Otherwise the log would tell of the selection for the first target.
        have hmem : .selected target.name selection.files.length ∈
            (t.run setup options c x).state.log := by
          rw [run_eq setup options c t x hprepare, hpool]
          exact List.mem_append_left _ (Pool.selected_mem_run hselect (hcomplete _))
        have hselected : (target.name, selection.files.length) ∈
            Event.selections (t.run setup options c x).state.log :=
          List.mem_filterMap.mpr ⟨_, hmem, rfl⟩
        exact absurd (h ▸ hselected) List.not_mem_nil

/-- A run has done nothing exactly if it is refused at once, and if it has done something, files
were selected for a linter. -/
theorem untouched_iff (hcomplete : ∀ count, Turn.Completes count (setup.schedule count))
    (hlinters : c.linters ≠ []) :
    ((t.run setup options c x).IsUntouched options t x ↔ setup.RefusesAtOnce options c t) ∧
      (Event.selections (t.run setup options c x).state.log = [] ↔
        setup.RefusesAtOnce options c t) := by
  have hrefuses := refusesAtOnce_of_selections setup options c t x hcomplete hlinters
  have huntouched := isUntouched_of_refusesAtOnce setup options c t x hcomplete
  exact ⟨⟨fun h => hrefuses h.selections, huntouched⟩,
    ⟨hrefuses, fun h => (huntouched h).selections⟩⟩

/-- A run that comes to a linter with an unreadable pattern has no outcomes and reports nothing, and
it has run no commands but those of linters before it. -/
theorem run_of_misread (hcomplete : ∀ count, Turn.Completes count (setup.schedule count))
    {before after : List LinterSettings} {s : LinterSettings}
    (hlinters : c.linters = before ++ s :: after) (hmisread : s.Misread c.globals.excludes)
    {targets : List Target} {cacheDir skipped : Path}
    (hprepare : t.prepare setup.digest setup.homes (options.jobCount c) c =
      .ok (targets, cacheDir, skipped)) :
    (∃ e, (t.run setup options c x).outcomes = .error e) ∧
      Event.milestones (t.run setup options c x).state.log = [] ∧
      ∀ call ∈ Event.calls (t.run setup options c x).state.log,
        ∃ j : Job, j.target.settings ∈ before ∧ j.call = call := by
  have haims := (prepare_eq_ok_iff.mp hprepare).1
  obtain ⟨first, target, last, rfl, hfirst, haim⟩ := split_aims (hlinters ▸ haims)
  have hcollects := collects_finalPool setup options c t x hprepare hcomplete
  have hmilestones := milestones_run_eq setup options c t x hprepare
  obtain ⟨topic, text, hpool⟩ := finalPool_eq setup c (options.jobCount c) skipped
    (first ++ target :: last) ⟨t, x, options.storeFor c cacheDir, []⟩
  rw [hpool] at hcollects hmilestones
  have htraced := Pool.traced_run (setup.terms (options.jobCount c) c skipped)
    (first ++ target :: last) (RunState.say ⟨t, x, options.storeFor c cacheDir, []⟩
      [.noted topic text]) (setup.schedule (first ++ target :: last).length)
  obtain ⟨looked, rest, rfl, hleft, hslots⟩ :=
    Pool.looked_of_misread htraced (by rw [haim.settings]; exact hmisread)
  obtain ⟨⟨e, houtcomes⟩, hclosing⟩ := Pool.refused_of_left (hcomplete _)
    (hleft.symm ▸ List.append_ne_nil_of_right_ne_nil rest (List.cons_ne_nil target last))
  refine ⟨⟨e, hcollects.outcomes.trans houtcomes⟩, by rw [hmilestones, hclosing]; rfl, ?_⟩
  -- A call goes back to a slot, and all slots are of linters before the faulty one.
  intro call hcall
  obtain ⟨slot, hslot, hcalled⟩ := List.mem_filterMap.mp (hcollects.calls.mem_iff.mp hcall)
  obtain ⟨target', hlooked, htrace⟩ := exists_of_mem_forall₂ hslots hslot
  obtain ⟨s', hs', haim'⟩ := exists_of_mem_forall₂ hfirst (List.mem_append_left rest hlooked)
  obtain ⟨j, progress, rfl, hj⟩ := Slot.eq_job_of_called? hcalled
  exact ⟨j, by rw [htrace.target_eq, haim'.settings]; exact hs', hj⟩

/-- A run of a configuration with a faulty linter has no outcomes and reports nothing. It has done
nothing if the linter is not fit to be run, or if it is the first one; and in general exactly if it
is refused at once, since otherwise files were selected for a linter. In any case the commands that
were run are those of linters before it. -/
theorem faulty_run_exact (hcomplete : ∀ count, Turn.Completes count (setup.schedule count))
    (before after : List LinterSettings) (s : LinterSettings)
    (hlinters : c.linters = before ++ s :: after)
    (hfault : s.Unfit setup.homes c.root t ∨ s.Misread c.globals.excludes) :
    let r := t.run setup options c x
    (∃ e, r.outcomes = .error e) ∧ Event.milestones r.state.log = [] ∧
      (s.Unfit setup.homes c.root t ∨ before = [] → r.IsUntouched options t x) ∧
      (r.IsUntouched options t x ↔ setup.RefusesAtOnce options c t) ∧
      (Event.selections r.state.log = [] ↔ setup.RefusesAtOnce options c t) ∧
      ∀ call ∈ Event.calls r.state.log, ∃ j : Job, j.target.settings ∈ before ∧ j.call = call := by
  intro r
  have hs : s ∈ c.linters := by simp [hlinters]
  obtain ⟨huntouched, hselections⟩ :=
    untouched_iff setup options c t x hcomplete (List.ne_nil_of_mem hs)
  cases hprepare : t.prepare setup.digest setup.homes (options.jobCount c) c with
  | error e =>
    have hr : r = ⟨⟨t, x, options.store.getD (.memory []), []⟩, options.store, .error e⟩ := by
      simp only [r, run, hprepare]
    have hrefuses : setup.RefusesAtOnce options c t := .unprepared hprepare
    refine ⟨⟨e, by rw [hr]⟩, by rw [hr]; rfl, fun _ => huntouched.mpr hrefuses, huntouched,
      hselections, ?_⟩
    rw [hr]
    exact fun call hcall => absurd hcall List.not_mem_nil
  | ok found =>
    obtain ⟨targets, cacheDir, skipped⟩ := found
    have hfit : ¬ s.Unfit setup.homes c.root t := by
      intro hunfit
      obtain ⟨e, he⟩ := prepare_of_unfit hs hunfit setup.digest (options.jobCount c)
      cases hprepare.symm.trans he
    have hmisread := hfault.resolve_left hfit
    obtain ⟨houtcomes, hmilestones, hcalls⟩ :=
      run_of_misread setup options c t x hcomplete hlinters hmisread hprepare
    refine ⟨houtcomes, hmilestones, fun hfirst => huntouched.mpr ?_, huntouched, hselections,
      hcalls⟩
    obtain rfl := hfirst.resolve_left hfit
    -- The first target is that of the faulty linter.
    have haims := (prepare_eq_ok_iff.mp hprepare).1
    rw [hlinters] at haims
    obtain ⟨target, rest, haim, -, rfl⟩ := List.forall₂_cons_left_iff.mp haims
    obtain ⟨e, hselect⟩ := select_of_misread (t := t) hmisread [skipped] target.workDir
    exact .unselected hprepare (haim.settings.symm ▸ hselect)

/-- The second of two linters has a format that cannot be read, so the first one is not run. -/
theorem faulty_run_exact_unreadable_format :
    let c := Sample.config false
      [Sample.linter "a" "/x", { Sample.linter "b" "/x" with formats := ["%q"] }]
    (Sample.tree.run (Sample.passingSetup inOrder) (Sample.options none) c ()).IsUntouched
      (Sample.options none) Sample.tree () := by
  intro c
  have hunfit : LinterSettings.Unfit Sample.homes ⟨.root, []⟩ Sample.tree
      { Sample.linter "b" "/x" with formats := ["%q"] } := .formats (by cbv)
  obtain ⟨-, -, huntouched, -⟩ := faulty_run_exact (Sample.passingSetup inOrder)
    (Sample.options none) c Sample.tree () completes_inOrder [Sample.linter "a" "/x"] []
    { Sample.linter "b" "/x" with formats := ["%q"] } rfl (.inl hunfit)
  exact huntouched (.inl hunfit)

end FileTree

/-! ### A linter that is run before another one is refused -/

namespace Sample

/-- A linter with a pattern that cannot be read. -/
def misread : LinterSettings := { linter "b" "/x" with includes := ["[z-a]"] }

theorem misread_misread : misread.Misread [] := by
  refine ⟨"[z-a]", by simp [misread], .malformed, ?_⟩
  have htext : "[z-a]".toList = ['[', 'z', '-', 'a', ']'] := by cbv
  unfold Glob.compile
  rw [htext]
  cbv

/-- The targets of a linter that can be run and of that one. -/
def misreadTargets : List Target :=
  [⟨linter "a" "/x", ⟨.root, []⟩, [], ""⟩, ⟨misread, ⟨.root, []⟩, [], ""⟩]

/-- The pool that has looked at the first of them only. -/
def halfway (note : Event) : Pool Unit where
  left := misreadTargets.drop 1
  slots := [.job ⟨⟨linter "a" "/x", ⟨.root, []⟩, [], ""⟩, ["x"]⟩ .waiting]
  state := ⟨tree, (), .memory [], [note, .noted .selection "a: 1 file(s) selected under /",
    .selected "a" 1]⟩
  failure := none

/-- The first target gets a slot, and the second one is refused. -/
theorem exists_run_halfway (note : Event) :
    let terms := (passingSetup inOrder).terms 1 (config false [linter "a" "/x", misread])
      ⟨.root, ["c"]⟩
    ∃ e, (Pool.fresh misreadTargets ⟨tree, (), .memory [], [note]⟩).run terms (inOrder 2) =
      { halfway note with failure := some (.badGlob e) }.run terms ((inOrder 2).drop 2) := by
  intro terms
  obtain ⟨e, hselect⟩ := FileTree.select_of_misread (t := tree) misread_misread
    [⟨.root, ["c"]⟩] ⟨.root, []⟩
  have hfirst : (Pool.fresh misreadTargets ⟨tree, (), .memory [], [note]⟩).turn terms .dispatch =
      halfway note := by cbv
  have hsecond : (halfway note).turn terms .dispatch =
      { halfway note with failure := some (.badGlob e) } :=
    Pool.turn_of_unselected terms (halfway note) ⟨misread, ⟨.root, []⟩, [], ""⟩ [] rfl rfl hselect
  have hturns : inOrder 2 = .dispatch :: .dispatch :: (inOrder 2).drop 2 := rfl
  refine ⟨e, ?_⟩
  rw [hturns, Pool.run, List.foldl_cons, List.foldl_cons, hfirst, hsecond]
  rfl

end Sample

/-- The second of two linters has a pattern that cannot be read. It ends the run, but by then files
were selected for the first linter, and it is run and remembered. -/
theorem FileTree.runs_before_misread :
    let r := Sample.tree.run (Sample.passingSetup inOrder) (Sample.options none)
      (Sample.config false [Sample.linter "a" "/x", Sample.misread]) ()
    Sample.misread.Misread [] ∧ r.outcomes.isOk = false ∧
      Event.selections r.state.log = [("a", 1)] ∧
      (Event.calls r.state.log).map (·.command) = ["/x"] ∧ r.state.store.isEmptyMemory = false := by
  intro r
  let c := Sample.config false [Sample.linter "a" "/x", Sample.misread]
  have hprepare : Sample.tree.prepare Sample.digest Sample.homes 1 c =
      .ok (Sample.misreadTargets, ⟨.root, ["c"]⟩, ⟨.root, ["c"]⟩) := by cbv
  obtain ⟨topic, text, hpool⟩ := finalPool_eq (Sample.passingSetup inOrder) c 1 ⟨.root, ["c"]⟩
    Sample.misreadTargets ⟨Sample.tree, (), .memory [], []⟩
  obtain ⟨e, hrun⟩ := Sample.exists_run_halfway (.noted topic text)
  have hr : r = (fun p : Pool Unit => ⟨p.state.say p.closing, none, p.outcomes⟩) _ :=
    (run_eq (Sample.passingSetup inOrder) (Sample.options none) c Sample.tree () hprepare).trans
      (congrArg (fun p : Pool Unit => (⟨p.state.say p.closing, none, p.outcomes⟩ : RunResult Unit))
        (hpool.trans hrun))
  rw [hr]
  -- The two turns that look at the targets are known now, and the others can be computed.
  refine ⟨Sample.misread_misread, ?_, ?_, ?_, ?_⟩
  · cbv
  · cbv
  · cbv
  · cbv

end LinterSuite
