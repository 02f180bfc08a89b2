import LinterSuite.Proofs.Run.Seclusion
import LinterSuite.Proofs.Run.Traces

/-!
# Runs whose jobs do not disturb each other

If the store of a run is out of the way and commands change no files, every job sees its files as
they were when the run started, in whatever order the jobs take their steps. So what a job comes to
depends on the result of its command only, and the store holds the records of the jobs that have
ended, and nothing else.

## Main definitions

* `Runner.Gives`: a runner that changes no file and gives certain results
* `Job.endIn`: the end of a job that always sees its files as they are in one tree
* `Slot.record?`: the record of a job that has ended
* `Pool.Accords`: a pool whose jobs see their files as they were

## Main results

* `Pool.Accords.moves`: no move disturbs a job
* `Pool.accords_run`: nor does a whole run
-/

namespace LinterSuite

variable {σ : Type}

/-- A runner that changes no file and gives certain results only. -/
structure Runner.Gives (runner : Runner σ) (answers : RunCall → Except RunError RawOutput → Prop) :
    Prop where
  tree : ∀ call world, (runner call world).2.1 = world.1
  result : ∀ call world, answers call (runner call world).1.result

/-- Terms that fit what a run starts from. -/
structure Terms.Fit (terms : Terms σ) (a : Outset) : Prop where
  digest : terms.digest = a.digest
  skipped : terms.skipped = a.skipped
  globalExcludes : terms.globalExcludes = a.globalExcludes

/-! ### Jobs -/

namespace Job

variable {digest : Digest} {j : Job} {t : FileTree}

/-- The end of a job that always sees its files as they are in one tree. -/
def endIn (digest : Digest) (j : Job) (t : FileTree) (result : Except RunError RawOutput) :
    Except RunFailure Outcome :=
  match j.outcome (j.observeIn t) (j.observeIn t) result with
  | .error e => .error e
  | .ok o =>
    match j.recordIn digest t o with
    | .error e => .error (.path e)
    | .ok _ => .ok o

/-- A job that sees its files as they are in that tree ends so, and if all went well its record is
saved. -/
theorem Settles.endIn {result : Except RunError RawOutput} {s s' : RunState σ}
    {ended : Except RunFailure Outcome}
    (h : j.Settles digest (j.observeIn t) result s ended s')
    (hsame : ∀ p ∈ j.paths, s.tree.stat p = t.stat p) :
    ended = j.endIn digest t result ∧
      ((∃ e, ended = .error e ∧ (s'.store, s'.tree) = (s.store, s.tree)) ∨
        ∃ o r, ended = .ok o ∧ j.recordIn digest t o = .ok r ∧
          (s'.store, s'.tree) = s.store.save digest s.tree r) := by
  unfold Job.endIn
  cases h with
  | unread outcome =>
    rw [observeIn_congr hsame] at outcome
    exact ⟨by simp only [outcome], .inl ⟨_, rfl, rfl⟩⟩
  | unrecorded outcome record =>
    rw [observeIn_congr hsame] at outcome
    rw [recordIn_congr hsame] at record
    exact ⟨by simp only [outcome, record], .inl ⟨_, rfl, rfl⟩⟩
  | recorded outcome record =>
    rw [observeIn_congr hsame] at outcome
    rw [recordIn_congr hsame] at record
    exact ⟨by simp only [outcome, record], .inr ⟨_, _, rfl, record, rfl⟩⟩

end Job

/-- How far a job has come that always sees its files as they are in one tree. -/
def JobState.Accords (answers : RunCall → Except RunError RawOutput → Prop) (digest : Digest)
    (t : FileTree) (j : Job) : JobState → Prop
  | waiting => True
  | observed before => before = j.observeIn t
  | returned before result => before = j.observeIn t ∧ answers j.call result
  | ended outcome => ∃ result, answers j.call result ∧ outcome = j.endIn digest t result

/-! ### Records of slots -/

namespace Slot

variable {digest : Digest} {t : FileTree} {slot : Slot} {r : RunRecord}

/-- The record of a job that has ended, of files as they are in one tree. -/
def record? (digest : Digest) (t : FileTree) : Slot → Option RunRecord
  | job j (.ended (.ok o)) => (j.recordIn digest t o).toOption
  | _ => none

theorem record?_of_isNew (h : slot.IsNew) : slot.record? digest t = none := by
  cases slot with
  | idle => rfl
  | job j progress =>
    obtain rfl : progress = .waiting := h
    rfl

theorem record?_eq_some (h : slot.record? digest t = some r) :
    ∃ j o, slot = .job j (.ended (.ok o)) ∧ j.recordIn digest t o = .ok r := by
  unfold record? at h
  split at h
  · next j o =>
    refine ⟨j, o, rfl, ?_⟩
    cases hrecord : j.recordIn digest t o with
    | error e => simp [hrecord, Except.toOption] at h
    | ok r' => simpa [hrecord, Except.toOption] using h
  · cases h

theorem name_of_record? (h : slot.record? digest t = some r) :
    ∃ j progress, slot = .job j progress ∧ r.name = j.name := by
  obtain ⟨j, o, rfl, hrecord⟩ := record?_eq_some h
  exact ⟨j, _, rfl, (CacheStore.recordOf_spec hrecord).1⟩

end Slot

/-! ### Slots and pools -/

/-- A slot whose target was looked at after some records of others were saved, and whose job always
sees its files as they were at first. -/
structure Slot.Accords (a : Outset) (answers : RunCall → Except RunError RawOutput → Prop)
    (rs : List RunRecord) (target : Target) (slot : Slot) : Prop where
  start : ∃ older, older <:+ rs ∧ (∀ r ∈ older, r.name ≠ target.name) ∧
    a.slotAfter older target = .ok slot.start
  progress : ∀ j progress, slot = .job j progress → progress.Accords answers a.digest a.tree j

namespace Slot.Accords

variable {a : Outset} {answers : RunCall → Except RunError RawOutput → Prop}
  {rs rs' : List RunRecord} {target : Target} {slot : Slot} {j : Job} {progress : JobState}

theorem mono (h : slot.Accords a answers rs target) (hle : rs <:+ rs') :
    slot.Accords a answers rs' target := by
  obtain ⟨older, holder, hstart⟩ := h.start
  exact ⟨⟨older, holder.trans hle, hstart⟩, h.progress⟩

/-- What was found out about the target. -/
theorem found (h : slot.Accords a answers rs target) : ∃ older, older <:+ rs ∧
    (∀ r ∈ older, r.name ≠ target.name) ∧ a.slotAfter older target = .ok slot.start ∧
    target.Found a.digest (a.after older).2 (a.after older).1 a.skipped a.globalExcludes
      (.ok slot.start) := by
  obtain ⟨older, holder, hothers, hstart⟩ := h.start
  refine ⟨older, holder, hothers, hstart, ?_⟩
  rw [← hstart]
  exact FileTree.found_slot ..

/-- A job is one of its target. -/
theorem target_eq (h : Slot.Accords a answers rs target (.job j progress)) : j.target = target := by
  obtain ⟨older, -, -, -, hfound⟩ := h.found
  cases hfound with
  | due => rfl

/-- Its files are those selected at first. -/
theorem filesOf_eq (h : Slot.Accords a answers rs target (.job j progress)) (hsteady : a.IsSteady)
    (hrs : ∀ r ∈ rs, r.name ∈ a.names) (htarget : target ∈ a.targets) :
    a.filesOf target = .ok j.files := by
  obtain ⟨older, holder, -, -, hfound⟩ := h.found
  cases hfound with
  | due select =>
    rw [← hsteady.filesIn older (fun r hr => hrs r (holder.subset hr)) target htarget,
      Target.filesIn, select]
    rfl

/-- The same is found at its files, whatever records are saved. -/
theorem stat_eq (h : Slot.Accords a answers rs target (.job j progress)) (hsteady : a.IsSteady)
    (hrs : ∀ r ∈ rs, r.name ∈ a.names) (htarget : target ∈ a.targets) :
    ∀ p ∈ j.paths, (a.after rs).2.stat p = a.tree.stat p := by
  have hfiles := h.filesOf_eq hsteady hrs htarget
  obtain rfl := h.target_eq
  exact hsteady.stat rs hrs j.target htarget j.files hfiles

end Slot.Accords

namespace Pool

variable {a : Outset} {answers : RunCall → Except RunError RawOutput → Prop}
  {rs : List RunRecord} {terms : Terms σ} {p p' : Pool σ}

/-- A pool whose jobs always see their files as they were at first. Its store holds the records of
the jobs that have ended. -/
structure Accords (a : Outset) (answers : RunCall → Except RunError RawOutput → Prop)
    (rs : List RunRecord) (p : Pool σ) : Prop where
  saved : (p.state.store, p.state.tree) = a.after rs
  records : rs.Perm (p.slots.filterMap (Slot.record? a.digest a.tree))
  slots : ∃ looked, a.targets = looked ++ p.left ∧
    List.Forall₂ (Slot.Accords a answers rs) looked p.slots
  failure : ∀ e, p.failure = some e → ∃ target rest, p.left = target :: rest ∧
    ∃ older, older <:+ rs ∧ (∀ r ∈ older, r.name ≠ target.name) ∧
      a.slotAfter older target = .error e

namespace Accords

/-- Records are those of targets that were looked at. -/
theorem exists_target (h : p.Accords a answers rs) {looked : List Target}
    (hslots : List.Forall₂ (Slot.Accords a answers rs) looked p.slots) {r : RunRecord}
    (hr : r ∈ rs) : ∃ target ∈ looked, r.name = target.name := by
  obtain ⟨slot, hslot, hrecord⟩ := List.mem_filterMap.mp (h.records.mem_iff.mp hr)
  obtain ⟨target, htarget, haccords⟩ := exists_of_mem_forall₂ hslots hslot
  obtain ⟨j, progress, rfl, hname⟩ := Slot.name_of_record? hrecord
  exact ⟨target, htarget, hname.trans (congrArg Target.name haccords.target_eq)⟩

theorem mem_names (h : p.Accords a answers rs) : ∀ r ∈ rs, r.name ∈ a.names := by
  intro r hr
  obtain ⟨looked, htargets, hslots⟩ := h.slots
  obtain ⟨target, htarget, hname⟩ := h.exists_target hslots hr
  exact List.mem_map.mpr ⟨target, htargets ▸ List.mem_append_left _ htarget, hname.symm⟩

/-- A target that could not be looked at, after some records of others were saved. -/
theorem exists_refused (h : p.Accords a answers rs) {e : RunFailure} (he : p.failure = some e) :
    ∃ target rest older, p.left = target :: rest ∧ target ∈ a.targets ∧
      (∀ r ∈ older, r.name ∈ a.names ∧ r.name ≠ target.name) ∧
        a.slotAfter older target = .error e := by
  obtain ⟨looked, htargets, -⟩ := h.slots
  obtain ⟨target, rest, next, older, holder, hothers, hfailure⟩ := h.failure e he
  have htarget : target ∈ a.targets := by
    rw [htargets, next]
    exact List.mem_append_right _ List.mem_cons_self
  exact ⟨target, rest, older, next, htarget, fun r hr =>
    ⟨h.mem_names r (holder.subset hr), hothers r hr⟩, hfailure⟩

/-- The next target has no record yet. -/
theorem name_ne (h : p.Accords a answers rs) (hdistinct : a.names.Nodup) {target : Target}
    {rest : List Target} (next : p.left = target :: rest) : ∀ r ∈ rs, r.name ≠ target.name := by
  intro r hr heq
  obtain ⟨looked, htargets, hslots⟩ := h.slots
  obtain ⟨other, hother, hname⟩ := h.exists_target hslots hr
  rw [Outset.names, htargets, next, List.map_append, List.map_cons] at hdistinct
  have hdisjoint := (List.nodup_append.mp hdistinct).2.2
  exact hdisjoint _ (List.mem_map_of_mem hother) _ List.mem_cons_self (hname.symm.trans heq)

/-- The records are of different targets. -/
theorem sublist_names (h : p.Accords a answers rs) :
    ∃ names, (rs.map RunRecord.name).Perm names ∧ names.Sublist a.names := by
  obtain ⟨looked, htargets, hslots⟩ := h.slots
  refine ⟨_, h.records.map RunRecord.name, ?_⟩
  refine List.Sublist.trans ?_ (htargets ▸ (List.sublist_append_left looked p.left).map _)
  clear htargets
  -- The induction is on the targets that were looked at, each with its slot.
  generalize p.slots = slots at hslots
  induction hslots with
  | nil => exact List.Sublist.slnil
  | @cons target slot looked slots haccords _ ih =>
    cases hrecord : slot.record? a.digest a.tree with
    | none =>
      rw [List.filterMap_cons_none hrecord]
      exact ih.cons _
    | some r =>
      obtain ⟨j, progress, rfl, hname⟩ := Slot.name_of_record? hrecord
      have hname : r.name = target.name := hname.trans (congrArg Target.name haccords.target_eq)
      rw [List.filterMap_cons_some hrecord, List.map_cons, List.map_cons, hname]
      exact ih.cons_cons _

theorem exists_slot (h : p.Accords a answers rs) {place : Nat} {slot : Slot}
    (here : p.slots[place]? = some slot) :
    ∃ target ∈ a.targets, slot.Accords a answers rs target := by
  obtain ⟨looked, htargets, hslots⟩ := h.slots
  obtain ⟨target, htarget, haccords⟩ := exists_of_mem_forall₂ hslots (List.mem_of_getElem? here)
  exact ⟨target, htargets ▸ List.mem_append_left _ htarget, haccords⟩

/-- A job goes on without a record of it being saved. -/
theorem set (h : p.Accords a answers rs) {place : Nat} {j : Job} {progress progress' : JobState}
    (here : p.slots[place]? = some (.job j progress))
    (hprogress : progress'.Accords answers a.digest a.tree j)
    (hnone : Slot.record? a.digest a.tree (.job j progress) = none)
    (hnone' : Slot.record? a.digest a.tree (.job j progress') = none) {s : RunState σ}
    (hs : (s.store, s.tree) = (p.state.store, p.state.tree)) :
    Accords a answers rs { p with slots := p.slots.set place (.job j progress'), state := s } := by
  obtain ⟨looked, htargets, hslots⟩ := h.slots
  refine ⟨hs.trans h.saved, ?_, ⟨looked, htargets, ?_⟩, h.failure⟩
  · rw [filterMap_set_of_eq here (hnone'.trans hnone.symm)]
    exact h.records
  · refine forall₂_set hslots here fun _ _ haccords => ⟨haccords.start, ?_⟩
    rintro _ _ ⟨rfl, rfl⟩
    exact hprogress

/-- A job ends, and its record is saved. -/
theorem save (h : p.Accords a answers rs) {place : Nat} {j : Job} {progress : JobState}
    {o : Outcome} {r : RunRecord} (here : p.slots[place]? = some (.job j progress))
    (hprogress : JobState.Accords answers a.digest a.tree j (.ended (.ok o)))
    (hnone : Slot.record? a.digest a.tree (.job j progress) = none)
    (hrecord : j.recordIn a.digest a.tree o = .ok r) {s : RunState σ}
    (hs : (s.store, s.tree) = p.state.store.save a.digest p.state.tree r) :
    Accords a answers (r :: rs)
      { p with slots := p.slots.set place (.job j (.ended (.ok o))), state := s } := by
  have hle : rs <:+ r :: rs := List.suffix_cons r rs
  have hsome : Slot.record? a.digest a.tree (.job j (.ended (.ok o))) = some r := by
    rw [Slot.record?, hrecord, Except.toOption]
  obtain ⟨looked, htargets, hslots⟩ := h.slots
  refine ⟨?_, ?_, ⟨looked, htargets, ?_⟩, ?_⟩
  · have hafter : a.after (r :: rs) = (a.after rs).1.save a.digest (a.after rs).2 r := rfl
    rw [hafter, ← h.saved]
    exact hs
  · exact (h.records.cons r).trans (perm_filterMap_set here hnone hsome)
  · have hslots' := hslots.imp fun _ _ haccords => Slot.Accords.mono haccords hle
    refine forall₂_set hslots' here fun _ _ haccords => ⟨haccords.start, ?_⟩
    rintro _ _ ⟨rfl, rfl⟩
    exact hprogress
  · intro e he
    obtain ⟨target, rest, next, older, holder, hfailure⟩ := h.failure e he
    exact ⟨target, rest, next, older, holder.trans hle, hfailure⟩

/-- No move disturbs a job. -/
theorem moves (h : p.Accords a answers rs) (hmove : Moves terms p p') (hfit : terms.Fit a)
    (hsteady : a.IsSteady) (hdistinct : a.names.Nodup) (hgives : terms.runner.Gives answers) :
    ∃ rs', p'.Accords a answers rs' := by
  -- The terms are those of the start, so targets are looked at alike.
  have hlooks : ∀ target, p.slotOf terms target =
      (p.state.tree.slot a.digest p.state.store a.skipped a.globalExcludes target) := by
    intro target
    rw [slotOf, hfit.digest, hfit.skipped, hfit.globalExcludes]
  have hstore : p.state.store = (a.after rs).1 := congrArg Prod.fst h.saved
  have htree : p.state.tree = (a.after rs).2 := congrArg Prod.snd h.saved
  cases hmove with
  | rest => exact ⟨rs, h⟩
  | @refuse target rest events e going next found =>
    refine ⟨rs, h.saved, h.records, h.slots, ?_⟩
    rintro _ ⟨⟩
    refine ⟨target, rest, next, rs, List.suffix_rfl, h.name_ne hdistinct next, ?_⟩
    rw [hlooks, hstore, htree] at found
    exact congrArg Prod.snd found
  | @enter target rest events slot going next found =>
    have hnew := (found_slotOf found).isNew
    rw [hlooks, hstore, htree] at found
    obtain ⟨looked, htargets, hslots⟩ := h.slots
    refine ⟨rs, h.saved, ?_, ⟨looked ++ [target], by simp [htargets, next], ?_⟩, ?_⟩
    · rw [List.filterMap_append, List.filterMap_cons_none (Slot.record?_of_isNew hnew),
        List.filterMap_nil, List.append_nil]
      exact h.records
    · refine List.rel_append hslots (.cons ⟨⟨rs, List.suffix_rfl, h.name_ne hdistinct next, ?_⟩, ?_⟩
        .nil)
      · rw [Slot.start_of_isNew hnew]
        exact congrArg Prod.snd found
      · rintro j progress rfl
        obtain rfl : progress = .waiting := hnew
        trivial
    · intro e he
      cases going.symm.trans he
  | @observe place j here =>
    obtain ⟨target, htarget, haccords⟩ := h.exists_slot here
    refine ⟨rs, h.set here ?_ rfl rfl rfl⟩
    have hsame := haccords.stat_eq hsteady h.mem_names htarget
    rw [← htree] at hsame
    exact Job.observeIn_congr hsame
  | @call place j before here =>
    obtain ⟨target, htarget, haccords⟩ := h.exists_slot here
    have hprogress : JobState.Accords answers a.digest a.tree j (.returned before
        (terms.runner j.call (p.state.tree, p.state.runner)).1.result) :=
      ⟨haccords.progress _ _ rfl, hgives.result _ _⟩
    refine ⟨rs, h.set here hprogress rfl rfl ?_⟩
    exact congrArg (Prod.mk p.state.store) (hgives.tree j.call (p.state.tree, p.state.runner))
  | @settle place j before result ended s here settles =>
    obtain ⟨target, htarget, haccords⟩ := h.exists_slot here
    obtain ⟨rfl, hanswers⟩ := haccords.progress _ _ rfl
    have hsame := haccords.stat_eq hsteady h.mem_names htarget
    rw [← htree] at hsame
    rw [hfit.digest] at settles
    obtain ⟨hended, hs⟩ := settles.endIn hsame
    have hprogress : JobState.Accords answers a.digest a.tree j (.ended ended) :=
      ⟨result, hanswers, hended⟩
    -- Only a job that ended well saves a record.
    rcases hs with ⟨e, rfl, hs⟩ | ⟨o, r, rfl, hrecord, hs⟩
    · exact ⟨rs, h.set here hprogress rfl rfl hs⟩
    · exact ⟨r :: rs, h.save here hprogress rfl hrecord hs⟩

end Accords

theorem accords_fresh {s : RunState σ} (hs : (s.store, s.tree) = (a.store, a.tree)) :
    (fresh a.targets s).Accords a answers [] := by
  refine ⟨hs, .refl _, ⟨[], rfl, .nil⟩, ?_⟩
  rintro e ⟨⟩

/-- Nor does a whole run. -/
theorem accords_run (hfit : terms.Fit a) (hsteady : a.IsSteady) (hdistinct : a.names.Nodup)
    (hgives : terms.runner.Gives answers) {s : RunState σ}
    (hs : (s.store, s.tree) = (a.store, a.tree)) (schedule : List Turn) :
    ∃ rs, ((fresh a.targets s).run terms schedule).Accords a answers rs :=
  run_induction (motive := fun p => ∃ rs, p.Accords a answers rs) ⟨[], accords_fresh hs⟩
    (fun _ _ hmove ⟨_, h⟩ => h.moves hmove hfit hsteady hdistinct hgives) schedule

end Pool

namespace FileTree

/-- If the store of a run is out of the way, no job of it is disturbed. -/
theorem accords_finalPool {answers : RunCall → Except RunError RawOutput → Prop}
    (setup : RunSetup σ) (hgives : setup.runner.Gives answers) (jobCount : Int) (c : Config)
    (skipped : Path) (a : Outset) (hfit : (setup.terms jobCount c skipped).Fit a)
    (hsteady : a.IsSteady) (hdistinct : a.names.Nodup) (x : σ) (log : List Event) :
    ∃ rs, (finalPool setup jobCount c skipped a.targets ⟨a.tree, x, a.store, log⟩).Accords a
      answers rs :=
  Pool.accords_run hfit hsteady hdistinct hgives rfl _

end FileTree

end LinterSuite
