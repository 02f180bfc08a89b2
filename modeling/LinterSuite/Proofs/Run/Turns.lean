import LinterSuite.Run
import Mathlib.Logic.Relation

/-!
# Turns of a pool

A turn of a pool does one of a few things: nothing, or the next target is refused or gets a slot, or
a job takes one of its steps. Whatever holds of every such move holds of all pools that a schedule
leads to.

## Main definitions

* `RunState.Act`: what a move does to the state that all share
* `Job.Settles`: how a job comes to its end
* `Pool.Moves`: what a turn does

## Main results

* `Pool.moves_turn`: every turn is a move
* `Pool.run_induction`: what every move preserves holds of a whole run
* `Pool.acts_run`: a run acts on its state by saying, calling and saving
-/

namespace LinterSuite

variable {σ : Type}

/-! ### What is done to the state -/

/-- Events that do not mark the progress of the report. -/
def Event.Quiet (events : List Event) : Prop := Event.milestones events = []

/-- Events that neither mark the progress of the report nor tell of a call. -/
structure Event.Aside (events : List Event) : Prop where
  quiet : Quiet events
  noCalls : Event.calls events = []

theorem Event.milestones_append (xs ys : List Event) :
    milestones (xs ++ ys) = milestones xs ++ milestones ys := List.filter_append ..

theorem Event.calls_append (xs ys : List Event) : calls (xs ++ ys) = calls xs ++ calls ys :=
  List.filterMap_append

theorem Event.Aside.append {xs ys : List Event} (hxs : Aside xs) (hys : Aside ys) :
    Aside (xs ++ ys) := by
  refine ⟨?_, by rw [calls_append, hxs.noCalls, hys.noCalls, List.append_nil]⟩
  unfold Event.Quiet
  rw [milestones_append, hxs.quiet, hys.quiet, List.append_nil]

namespace RunState

variable {digest : Digest} {runner : Runner σ} {s s' : RunState σ}

/-- The state after a command was run. -/
def afterCall (runner : Runner σ) (call : RunCall) (s : RunState σ) : RunState σ :=
  let (report, tree, state) := runner call (s.tree, s.runner)
  { s with tree, runner := state }.say [.called call report]

/-- The state after a record was saved. -/
def afterSave (digest : Digest) (r : RunRecord) (s : RunState σ) : RunState σ :=
  let (store, tree) := s.store.save digest s.tree r
  { s with store, tree }

/-- What a move does to the state that all share. -/
inductive Act (digest : Digest) (runner : Runner σ) : RunState σ → RunState σ → Prop
  | say (s : RunState σ) {events : List Event} (aside : Event.Aside events) :
      Act digest runner s (s.say events)
  | call (s : RunState σ) (call : RunCall) : Act digest runner s (s.afterCall runner call)
  | save (s : RunState σ) (r : RunRecord) : Act digest runner s (s.afterSave digest r)

/-- What several moves do to it. -/
abbrev Acts (digest : Digest) (runner : Runner σ) : RunState σ → RunState σ → Prop :=
  Relation.ReflTransGen (Act digest runner)

@[simp] theorem say_nil (s : RunState σ) : s.say [] = s := by simp [say]

/-- No act takes anything back that was said, and none marks progress. -/
theorem Act.log (h : Act digest runner s s') :
    ∃ events, s'.log = s.log ++ events ∧ Event.Quiet events := by
  cases h with
  | say aside => exact ⟨_, rfl, aside.quiet⟩
  | call call => exact ⟨[.called call _], rfl, rfl⟩
  | save => exact ⟨[], (List.append_nil _).symm, rfl⟩

theorem Acts.log (h : Acts digest runner s s') :
    ∃ events, s'.log = s.log ++ events ∧ Event.Quiet events := by
  induction h with
  | refl => exact ⟨[], (List.append_nil _).symm, rfl⟩
  | tail _ hact ih =>
    obtain ⟨events, hlog, hquiet⟩ := ih
    obtain ⟨events', hlog', hquiet'⟩ := hact.log
    refine ⟨events ++ events', by rw [hlog', hlog, List.append_assoc], ?_⟩
    unfold Event.Quiet at *
    rw [Event.milestones_append, hquiet, hquiet', List.append_nil]

end RunState

/-! ### Steps of a job -/

namespace Job

variable {digest : Digest} {runner : Runner σ} {j : Job}

/-- The record of a job with an outcome. -/
def recordIn (digest : Digest) (j : Job) (t : FileTree) (o : Outcome) :
    Except FileTree.PathError RunRecord :=
  CacheStore.recordOf digest t j.name j.paths o.succeeded j.target.settings.checkHash
    j.target.fingerprint

/-- How a job whose command was run comes to its end: its output cannot be understood, its files
cannot be recorded, or a record is saved. -/
inductive Settles (digest : Digest) (j : Job) (before : Observation)
    (result : Except RunError RawOutput) (s : RunState σ) :
    Except RunFailure Outcome → RunState σ → Prop
  | unread {e : RunFailure} (outcome : j.outcome before (j.observeIn s.tree) result = .error e) :
      Settles digest j before result s (.error e) (s.say (j.warnings result))
  | unrecorded {o : Outcome} {e : FileTree.PathError}
      (outcome : j.outcome before (j.observeIn s.tree) result = .ok o)
      (record : j.recordIn digest s.tree o = .error e) :
      Settles digest j before result s (.error (.path e)) (s.say (j.warnings result))
  | recorded {o : Outcome} {r : RunRecord} {notes : List Event}
      (outcome : j.outcome before (j.observeIn s.tree) result = .ok o)
      (record : j.recordIn digest s.tree o = .ok r) (aside : Event.Aside notes) :
      Settles digest j before result s (.ok o)
        (((s.say (j.warnings result)).afterSave digest r).say notes)

theorem aside_warnings (j : Job) (result : Except RunError RawOutput) :
    Event.Aside (j.warnings result) := by
  rcases result with (_ | _ | _ | _ | _) | _ <;> exact ⟨rfl, rfl⟩

/-- A run is remembered by saving its record. -/
theorem remember_eq (digest : Digest) (j : Job) (s : RunState σ) (o : Outcome) :
    ∃ notes, Event.Aside notes ∧ j.remember digest s o =
      (j.recordIn digest s.tree o).map fun r => (s.afterSave digest r).say notes := by
  let fault :=
    if o.succeeded then s.tree.snapshotFault? j.paths j.target.settings.checkHash else none
  refine ⟨(fault.map faultNote).toList, ?_, ?_⟩
  · cases fault <;> exact ⟨rfl, rfl⟩
  · unfold remember CacheStore.recordRun recordIn
    dsimp only
    cases CacheStore.recordOf digest s.tree j.name j.paths o.succeeded
      j.target.settings.checkHash j.target.fingerprint <;> rfl

theorem settles_settle (digest : Digest) (j : Job) (before : Observation)
    (result : Except RunError RawOutput) (s : RunState σ) :
    ∃ ended s', j.settle digest before result s = (.ended ended, s') ∧
      j.Settles digest before result s ended s' := by
  unfold settle
  -- What is warned of changes no file.
  have htree : (s.say (j.warnings result)).tree = s.tree := rfl
  simp only [htree]
  cases houtcome : j.outcome before (j.observeIn s.tree) result with
  | error e => exact ⟨_, _, rfl, .unread houtcome⟩
  | ok o =>
    obtain ⟨notes, haside, hremember⟩ := j.remember_eq digest (s.say (j.warnings result)) o
    rw [htree] at hremember
    simp only [hremember]
    cases hrecord : j.recordIn digest s.tree o with
    | error e => exact ⟨_, _, rfl, .unrecorded houtcome hrecord⟩
    | ok r => exact ⟨_, _, rfl, .recorded houtcome hrecord haside⟩

/-- The end of a job says something, and saves something if all went well. -/
theorem Settles.acts {runner : Runner σ} {before : Observation}
    {result : Except RunError RawOutput} {s s' : RunState σ} {ended : Except RunFailure Outcome}
    (h : j.Settles digest before result s ended s') : RunState.Acts digest runner s s' := by
  have hwarned : RunState.Acts digest runner s (s.say (j.warnings result)) :=
    .single (.say s (j.aside_warnings result))
  cases h with
  | unread | unrecorded => exact hwarned
  | recorded _ _ aside => exact (hwarned.tail (.save _ _)).tail (.say _ aside)

end Job

/-! ### Moves of a pool -/

namespace Pool

variable {terms : Terms σ} {p p' : Pool σ}

/-- What a pool finds out about a target. -/
def slotOf (terms : Terms σ) (p : Pool σ) (target : Target) :
    List Event × Except RunFailure Slot :=
  p.state.tree.slot terms.digest p.state.store terms.skipped terms.globalExcludes target

/-- What a turn does. -/
inductive Moves (terms : Terms σ) (p : Pool σ) : Pool σ → Prop
  | rest : Moves terms p p
  /-- Something is wrong with the next target. -/
  | refuse {target : Target} {rest : List Target} {events : List Event} {e : RunFailure}
      (going : p.failure = none) (next : p.left = target :: rest)
      (found : p.slotOf terms target = (events, .error e)) :
      Moves terms p { p with state := p.state.say events, failure := some e }
  /-- The next target gets a slot. -/
  | enter {target : Target} {rest : List Target} {events : List Event} {slot : Slot}
      (going : p.failure = none) (next : p.left = target :: rest)
      (found : p.slotOf terms target = (events, .ok slot)) :
      Moves terms p
        { p with left := rest, slots := p.slots ++ [slot], state := p.state.say events }
  /-- A job looks at its files. -/
  | observe {place : Nat} {j : Job} (here : p.slots[place]? = some (.job j .waiting)) :
      Moves terms p
        { p with slots := p.slots.set place (.job j (.observed (j.observeIn p.state.tree))) }
  /-- The command of a job is run. -/
  | call {place : Nat} {j : Job} {before : Observation}
      (here : p.slots[place]? = some (.job j (.observed before))) :
      Moves terms p
        { p with
          slots := p.slots.set place (.job j (.returned before
            (terms.runner j.call (p.state.tree, p.state.runner)).1.result))
          state := p.state.afterCall terms.runner j.call }
  /-- A job comes to its end. -/
  | settle {place : Nat} {j : Job} {before : Observation} {result : Except RunError RawOutput}
      {ended : Except RunFailure Outcome} {s : RunState σ}
      (here : p.slots[place]? = some (.job j (.returned before result)))
      (settles : j.Settles terms.digest before result p.state ended s) :
      Moves terms p { p with slots := p.slots.set place (.job j (.ended ended)), state := s }

theorem moves_dispatch (terms : Terms σ) (p : Pool σ) : Moves terms p (p.dispatch terms) := by
  unfold dispatch
  split
  · next target rest going next =>
    rcases hfound : p.slotOf terms target with ⟨events, _ | slot⟩
    · have hfound' := hfound
      unfold slotOf at hfound'
      simp only [hfound']
      exact .refuse going next hfound
    · have hfound' := hfound
      unfold slotOf at hfound'
      simp only [hfound']
      exact .enter going next hfound
  · exact .rest

theorem moves_work (terms : Terms σ) (p : Pool σ) (place : Nat) :
    Moves terms p (p.work terms place) := by
  unfold work
  split
  · next j progress here =>
    split
    · exact .rest
    · cases progress with
      | waiting => exact .observe here
      | observed before => exact .call here
      | returned before result =>
        obtain ⟨ended, s, hsettle, hsettles⟩ :=
          j.settles_settle terms.digest before result p.state
        simp only [Job.step, hsettle]
        exact .settle here hsettles
      | ended result =>
        -- A job that has ended takes no step.
        obtain ⟨hplace, hslot⟩ := List.getElem?_eq_some_iff.mp here
        have hsame : p.slots.set place (.job j (.ended result)) = p.slots := by
          rw [← hslot, List.set_getElem_self]
        simp only [Job.step, hsame]
        exact .rest
  · exact .rest

/-- Every turn is a move. -/
theorem moves_turn (terms : Terms σ) (p : Pool σ) (t : Turn) : Moves terms p (p.turn terms t) := by
  cases t with
  | dispatch => exact moves_dispatch terms p
  | work place => exact moves_work terms p place

/-- What every move preserves holds of a whole run. -/
theorem run_induction {motive : Pool σ → Prop} (h : motive p)
    (step : ∀ p p', Moves terms p p' → motive p → motive p') (schedule : List Turn) :
    motive (p.run terms schedule) := by
  induction schedule generalizing p with
  | nil => exact h
  | cons t schedule ih => exact ih (step p _ (moves_turn terms p t) h)

/-! ### What a run does to its state -/

theorem aside_slot (digest : Digest) (t : FileTree) (store : CacheStore) (skipped : List Path)
    (globalExcludes : List String) (target : Target) :
    Event.Aside (t.slot digest store skipped globalExcludes target).1 := by
  have hselection : ∀ selection : Selection, Event.Aside (selection.events target) := by
    intro selection
    have hcheckouts : Event.Aside (selection.checkouts.map fun p =>
        .noted .selection s!"skipping nested checkout {p}") := by
      constructor
      · simp [Event.Quiet, Event.milestones]
      · simp [Event.calls]
    exact hcheckouts.append ⟨rfl, rfl⟩
  have hverdict : ∀ verdict : Verdict, Event.Aside (verdict.notes target.name) := by
    intro verdict
    cases verdict <;> exact ⟨rfl, rfl⟩
  unfold FileTree.slot
  split
  · exact ⟨rfl, rfl⟩
  · next selection _ =>
    dsimp only
    split
    · exact (hselection selection).append ⟨rfl, rfl⟩
    · split
      · exact hselection selection
      · exact (hselection selection).append (hverdict _)

theorem Moves.acts (h : Moves terms p p') :
    RunState.Acts terms.digest terms.runner p.state p'.state := by
  cases h with
  | rest | observe => exact .refl
  | @refuse target _ _ _ _ _ found | @enter target _ _ _ _ _ found =>
    have haside : Event.Aside (p.slotOf terms target).1 := aside_slot ..
    rw [found] at haside
    exact .single (.say _ haside)
  | call => exact .single (.call _ _)
  | settle _ settles => exact settles.acts

/-- A run acts on its state by saying, calling and saving. -/
theorem acts_run (terms : Terms σ) (schedule : List Turn) (p : Pool σ) :
    RunState.Acts terms.digest terms.runner p.state (p.run terms schedule).state :=
  run_induction (motive := fun p' => RunState.Acts terms.digest terms.runner p.state p'.state)
    .refl (fun _ _ hmove hacts => hacts.trans hmove.acts) schedule

end Pool

end LinterSuite
