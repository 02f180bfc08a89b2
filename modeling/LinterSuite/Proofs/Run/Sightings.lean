import LinterSuite.Proofs.Cache.HashMode
import LinterSuite.Proofs.Run.Samples
import LinterSuite.Proofs.Run.Statuses
import LinterSuite.Proofs.Run.Stores

/-!
# What a linter saw, and what was recorded of it

The record of a linter is made some time after its command has ended. In between, other jobs take
their steps, and their commands may write the files that this one has read. The record holds what
is found then, so a linter that is spared afterwards need not have seen what its files hold.

## Main definitions

* `RunState.Keeps`: states between which a record in memory is left alone
* `Job.Sighting`: a job with the states in which its command was called and its record was made
* `Job.Sparing`: a job that is not made, with the state in which its record was found
* `Slot.Sighted`, `Pool.Sighted`: slots and pools that go back to such states
* `Job.Knows`: a tree in which files hold what a command saw or left

## Main results

* `Pool.sighted_run`: every slot of a run goes back to such states
* `CacheStore.sameBytes_of_unchanged`: what is unchanged since a record has the recorded contents
* `Job.Sparing.eq_of_memory`, `Job.Sparing.eq_of_entry`: the record that is found is the one that
  was made
* `FileTree.cached_contents_exact`: when a linter that is spared knows its files
* `FileTree.cached_contents_unseen`: it does not always
-/

namespace LinterSuite

variable {σ : Type}

/-! ### Records that others leave alone -/

namespace RunState

variable {digest : Digest} {name : String} {s s' s'' : RunState σ}

/-- A store in memory holds the same for a linter in both states. -/
def Keeps (name : String) (s s' : RunState σ) : Prop :=
  ∀ records, s.store = .memory records →
    ∃ records', s'.store = .memory records' ∧ records'.lookup name = records.lookup name

theorem Keeps.of_store_eq (h : s'.store = s.store) : s.Keeps name s' :=
  fun records hs => ⟨records, h.trans hs, rfl⟩

theorem Keeps.trans (h : s.Keeps name s') (h' : s'.Keeps name s'') : s.Keeps name s'' := by
  intro records hs
  obtain ⟨records', hs', hlookup⟩ := h records hs
  obtain ⟨records'', hs'', hlookup'⟩ := h' records' hs'
  exact ⟨records'', hs'', hlookup'.trans hlookup⟩

theorem keeps_afterSave {r : RunRecord} (h : name ≠ r.name) :
    s.Keeps name (s.afterSave digest r) := by
  intro records hs
  refine ⟨Keyed.put records r.name r, ?_, Keyed.lookup_put_of_ne r h⟩
  rw [afterSave, hs]
  rfl

end RunState

/-- A job that comes to its end leaves the records of other linters alone. -/
theorem Job.Settles.keeps {digest : Digest} {j : Job} {before : Observation}
    {result : Except RunError RawOutput} {s s' : RunState σ} {ended : Except RunFailure Outcome}
    (h : j.Settles digest before result s ended s') {name : String} (hne : name ≠ j.name) :
    s.Keeps name s' := by
  cases h with
  | unread | unrecorded => exact .of_store_eq rfl
  | @recorded o r notes outcome record aside =>
    have hname : name ≠ r.name := (CacheStore.recordOf_spec record).1 ▸ hne
    have hwarned : s.Keeps name (s.say (j.warnings result)) := .of_store_eq rfl
    exact (hwarned.trans (RunState.keeps_afterSave hname)).trans (.of_store_eq rfl)

/-! ### Calls and records of a job -/

/-- A job with a record and an outcome, between two states of a run: in the state `seen` its command
was called, and in the state `recorded` its record was made. Other jobs take steps before, between
and after. If the store is in memory, they leave the record alone. -/
structure Job.Sighting (digest : Digest) (runner : Runner σ) (first last : RunState σ) (j : Job)
    (o : Outcome) (r : RunRecord) (seen recorded : RunState σ) : Prop where
  before : RunState.Acts digest runner first seen
  between : RunState.Acts digest runner (seen.afterCall runner j.call) recorded
  delivers : j.Delivers (runner j.call (seen.tree, seen.runner)).1.result o
  record : j.recordIn digest recorded.tree o = .ok r
  after : RunState.Acts digest runner (recorded.afterSave digest r) last
  kept : (recorded.afterSave digest r).Keeps j.name last

/-- A job that goes back to the state in which its command was called, and to that in which its
record was made, as far as it has come. -/
def Job.Sighted (terms : Terms σ) (first now : RunState σ) (j : Job) : JobState → Prop
  | .returned _ result => ∃ seen,
      RunState.Acts terms.digest terms.runner first seen ∧
      RunState.Acts terms.digest terms.runner (seen.afterCall terms.runner j.call) now ∧
      (terms.runner j.call (seen.tree, seen.runner)).1.result = result
  | .ended (.ok o) => ∃ r seen recorded,
      j.Sighting terms.digest terms.runner first now o r seen recorded
  | _ => True

namespace Slot

/-- A slot that goes back to the state in which its target was looked at, and to those of its job.
If the store is in memory, it held for the linter then what it had held at first. -/
structure Sighted (terms : Terms σ) (first now : RunState σ) (target : Target) (slot : Slot) :
    Prop where
  start : ∃ s, RunState.Acts terms.digest terms.runner first s ∧ first.Keeps target.name s ∧
    target.Found terms.digest s.tree s.store terms.skipped terms.globalExcludes (.ok slot.start)
  progress : ∀ j progress, slot = .job j progress → j.Sighted terms first now progress

variable {terms : Terms σ} {first now later : RunState σ} {target : Target} {slot : Slot}

/-- A job is one of its target. -/
theorem Sighted.target_eq {j : Job} {progress : JobState}
    (h : (Slot.job j progress).Sighted terms first now target) : j.target = target := by
  obtain ⟨s, -, -, hfound⟩ := h.start
  cases hfound with
  | due => rfl

/-- A slot goes back to the same states later on, if others leave its record alone. -/
theorem Sighted.acts (h : slot.Sighted terms first now target)
    (hacts : RunState.Acts terms.digest terms.runner now later)
    (hkeeps : now.Keeps target.name later) : slot.Sighted terms first later target := by
  refine ⟨h.start, ?_⟩
  rintro j progress rfl
  have hprogress := h.progress j progress rfl
  -- Only a job that has ended has a record that others might write over.
  rcases progress with _ | _ | ⟨before, result⟩ | (e | o)
  · trivial
  · trivial
  · obtain ⟨seen, hseen, hbetween, hresult⟩ := hprogress
    exact ⟨seen, hseen, hbetween.trans hacts, hresult⟩
  · trivial
  · obtain ⟨r, seen, recorded, hsighting⟩ := hprogress
    have hname : j.name = target.name := congrArg Target.name h.target_eq
    exact ⟨r, seen, recorded, { hsighting with
      after := hsighting.after.trans hacts
      kept := hsighting.kept.trans (hname ▸ hkeeps) }⟩

/-- An outcome names the linter of its target. -/
theorem Sighted.program (h : slot.Sighted terms first now target) {o : Outcome}
    (hresult : slot.result = .ok o) : o.program = target.name := by
  cases slot with
  | idle o' =>
    obtain rfl : o' = o := Except.ok.inj hresult
    obtain ⟨s, -, -, hfound⟩ := h.start
    cases hfound with
    | nothing | spared => rfl
  | job j progress =>
    have hprogress := h.progress j progress rfl
    cases progress with
    | ended ended =>
      obtain rfl : ended = .ok o := hresult
      obtain ⟨r, seen, recorded, hsighting⟩ := hprogress
      exact hsighting.delivers.program.trans (congrArg Target.name h.target_eq)
    | _ => exact nomatch hresult

end Slot

namespace Pool

variable {terms : Terms σ} {first : RunState σ} {targets : List Target} {p p' : Pool σ}

/-- A pool whose slots go back to such states. If the store is in memory, it holds for the targets
that are left what it held at first. -/
structure Sighted (terms : Terms σ) (first : RunState σ) (targets : List Target) (p : Pool σ) :
    Prop where
  acts : RunState.Acts terms.digest terms.runner first p.state
  slots : ∃ looked, targets = looked ++ p.left ∧
    List.Forall₂ (Slot.Sighted terms first p.state) looked p.slots
  left : ∀ target ∈ p.left, first.Keeps target.name p.state

namespace Sighted

/-- Something is done that leaves all records alone. -/
theorem advance (h : p.Sighted terms first targets) {s : RunState σ}
    (hacts : RunState.Acts terms.digest terms.runner p.state s) (hstore : s.store = p.state.store) :
    { p with state := s }.Sighted terms first targets := by
  obtain ⟨looked, htargets, hslots⟩ := h.slots
  exact ⟨h.acts.trans hacts, ⟨looked, htargets, hslots.imp fun _ _ hslot =>
    hslot.acts hacts (.of_store_eq hstore)⟩,
    fun target htarget => (h.left target htarget).trans (.of_store_eq hstore)⟩

/-- A job goes on. -/
theorem set (h : p.Sighted terms first targets) {place : Nat} {j : Job}
    {progress progress' : JobState} (here : p.slots[place]? = some (.job j progress))
    (hprogress : j.Sighted terms first p.state progress') :
    { p with slots := p.slots.set place (.job j progress') }.Sighted terms first targets := by
  obtain ⟨looked, htargets, hslots⟩ := h.slots
  refine ⟨h.acts, ⟨looked, htargets, forall₂_set hslots here fun _ _ hslot => ⟨hslot.start, ?_⟩⟩,
    h.left⟩
  rintro _ _ ⟨rfl, rfl⟩
  exact hprogress

/-- A job comes to its end. -/
theorem settle (h : p.Sighted terms first targets) (hnames : (targets.map Target.name).Nodup)
    {place : Nat} {j : Job} {before : Observation} {result : Except RunError RawOutput}
    {ended : Except RunFailure Outcome} {s : RunState σ}
    (here : p.slots[place]? = some (.job j (.returned before result)))
    (settles : j.Settles terms.digest before result p.state ended s) :
    { p with slots := p.slots.set place (.job j (.ended ended)), state := s }.Sighted terms first
      targets := by
  obtain ⟨looked, rfl, hslots⟩ := h.slots
  rw [List.map_append, List.nodup_append] at hnames
  obtain ⟨hlooked, -, happart⟩ := hnames
  obtain ⟨target, htarget, hslot⟩ := exists_of_mem_forall₂ hslots (List.mem_of_getElem? here)
  have hname : j.name = target.name := congrArg Target.name hslot.target_eq
  -- The call was made in the state that the job goes back to, and the record is made now.
  have hended : j.Sighted terms first s (.ended ended) := by
    obtain ⟨seen, hseen, hbetween, hresult⟩ := hslot.progress _ _ rfl
    cases settles with
    | unread | unrecorded => trivial
    | @recorded o r notes outcome record aside =>
      refine ⟨r, seen, p.state.say (j.warnings result), hseen, ?_, ?_, record, ?_, ?_⟩
      · exact hbetween.tail (.say _ (j.aside_warnings result))
      · rw [hresult]
        exact Job.delivers_of_outcome outcome
      · exact .single (.say _ aside)
      · exact .of_store_eq rfl
  refine ⟨h.acts.trans settles.acts, ⟨looked, rfl, ?_⟩, fun other hother => ?_⟩
  · -- Only this job has a record under its name, so those of the others are left alone.
    refine forall₂_set_distinct (f := Target.name) hslots hlooked here
      (fun _ _ hslot => (congrArg Target.name hslot.target_eq).symm)
      (fun _ _ hslot => ⟨hslot.start, ?_⟩)
      (fun _ _ _ _ hne hslot => hslot.acts settles.acts (settles.keeps hne))
    rintro _ _ ⟨rfl, rfl⟩
    exact hended
  · refine (h.left other hother).trans (settles.keeps ?_)
    rw [hname]
    exact (happart _ (List.mem_map_of_mem htarget) _ (List.mem_map_of_mem hother)).symm

theorem moves (h : p.Sighted terms first targets) (hnames : (targets.map Target.name).Nodup)
    (hmove : Moves terms p p') : p'.Sighted terms first targets := by
  have hacts := hmove.acts
  cases hmove with
  | rest => exact h
  | refuse =>
    obtain ⟨hacts, hslots, hleft⟩ := h.advance hacts rfl
    exact ⟨hacts, hslots, hleft⟩
  | @enter target rest events slot going next found =>
    have hfound := found_slotOf found
    have hkeeps := h.left target (next ▸ List.mem_cons_self)
    have hstart : slot.Sighted terms first (p.state.say events) target := by
      refine ⟨⟨p.state, h.acts, hkeeps, (Slot.start_of_isNew hfound.isNew).symm ▸ hfound⟩, ?_⟩
      rintro j progress rfl
      obtain rfl : progress = .waiting := hfound.isNew
      trivial
    obtain ⟨hacts, ⟨looked, htargets, hslots⟩, hleft⟩ := h.advance hacts rfl
    -- The target passes from those that are left to the end of those that were looked at.
    refine ⟨hacts, ⟨looked ++ [target], ?_, List.rel_append hslots (.cons hstart .nil)⟩, ?_⟩
    · rw [htargets, List.append_assoc]
      exact congrArg (looked ++ ·) next
    · exact fun other hother => hleft other (next ▸ List.mem_cons_of_mem _ hother)
  | observe here => exact h.set here trivial
  | call here => exact (h.advance hacts rfl).set here ⟨p.state, h.acts, .refl, rfl⟩
  | settle here settles => exact h.settle hnames here settles

end Sighted

/-- Every slot of a run goes back to such states. -/
theorem sighted_run (terms : Terms σ) {targets : List Target}
    (hnames : (targets.map Target.name).Nodup) (s : RunState σ) (schedule : List Turn) :
    ((fresh targets s).run terms schedule).Sighted terms s targets :=
  run_induction ⟨.refl, ⟨[], rfl, .nil⟩, fun _ _ => .of_store_eq rfl⟩
    (fun _ _ hmove h => h.moves hnames hmove) schedule

end Pool

/-! ### What is unchanged since a record -/

namespace CacheStore

variable {digest : Digest} {t t' : FileTree} {files files' : List Path}
  {name fingerprint fingerprint' : String} {succeeded checkHash : Bool} {r : RunRecord}

/-- What is unchanged since a record has the paths that were recorded, if the two streams of paths
do not have the same digest by chance. -/
theorem samePaths_of_unchanged
    (hrecord : recordOf digest t name files succeeded checkHash fingerprint = .ok r)
    (hverdict : verdictOf digest t' files' checkHash fingerprint' (some r) = .ok .unchanged)
    (hdigest : Set.InjOn digest
      {stream | stream = Path.stream files ∨ stream = Path.stream files'}) :
    files'.map Path.toString = files.map Path.toString := by
  obtain ⟨hsucceeded, -, s', hs', hfiles', -⟩ := verdictOf_eq_unchanged_iff.mp hverdict
  obtain ⟨-, -, -, hspec⟩ := recordOf_spec hrecord
  obtain ⟨s, hs, hfiles, -⟩ := hspec hsucceeded
  have hobserved := FileTree.exists_snapshot_iff.mp ⟨s, hs⟩
  have hobserved' := FileTree.exists_snapshot_iff.mp ⟨s', hs'⟩
  have hstream : Path.stream files' = Path.stream files := by
    refine hdigest (.inr rfl) (.inl rfl) ?_
    rw [← (FileTree.snapshot_eq_ok_some_iff.mp hs').1, ← (FileTree.snapshot_eq_ok_some_iff.mp hs).1,
      hfiles', hfiles]
  exact Path.stream_inj (fun _ => hobserved'.hasNull) (fun _ => hobserved.hasNull) hstream

/-- What is unchanged since a record has the contents that were recorded, if the two streams of
contents do not have the same digest by chance, and the streams tell the files apart. -/
theorem sameBytes_of_unchanged
    (hrecord : recordOf digest t name files succeeded true fingerprint = .ok r)
    (hverdict : verdictOf digest t' files true fingerprint' (some r) = .ok .unchanged)
    (hdigest : Set.InjOn digest
      {stream | t.contentStream files = .ok stream ∨ t'.contentStream files = .ok stream})
    (halike : t.SameSizes t' files ∨ t.PlainButLast files ∧ t'.PlainButLast files) :
    t.SameBytes t' files := by
  obtain ⟨hsucceeded, -, s', hs', -, hunchanged⟩ := verdictOf_eq_unchanged_iff.mp hverdict
  obtain ⟨-, -, -, hspec⟩ := recordOf_spec hrecord
  obtain ⟨s, hs, -, -, hcontent⟩ := hspec hsucceeded
  obtain ⟨-, -, stream, hstream, hdigested⟩ := FileTree.snapshot_eq_ok_some_iff.mp hs
  obtain ⟨-, -, stream', hstream', hdigested'⟩ := FileTree.snapshot_eq_ok_some_iff.mp hs'
  have hsame : stream' = stream := by
    refine hdigest (.inr hstream') (.inl hstream) ?_
    simpa [Snapshot.changedSince, hdigested', hcontent, hdigested] using hunchanged
  -- The streams are the same; it remains that each can be cut into contents in one way only.
  obtain ⟨xs, hxs, hx⟩ := FileTree.contentStream_eq_ok_iff.mp hstream
  obtain ⟨ys, hys, hy⟩ := FileTree.contentStream_eq_ok_iff.mp hstream'
  have hxlength : xs.length = files.length := (Except.mapM_eq_ok_iff.mp hxs).length_eq.symm
  have hylength : ys.length = files.length := (Except.mapM_eq_ok_iff.mp hys).length_eq.symm
  rw [hx, hy] at hsame
  rw [FileTree.sameBytes_iff hxs hys]
  rcases halike with hsizes | ⟨hplain, hplain'⟩
  · have hlengths := (FileTree.sameSizes_iff hxs hys).mp hsizes
    exact Path.filledStream_inj_of_lengths hylength hlengths hsame
  · exact Path.filledStream_inj_of_plain hylength hxlength (hplain'.not_mem hys)
      (hplain.not_mem hxs) hsame

end CacheStore

/-! ### Linters that are spared -/

/-- A job that is not made: in the state `now`, its files are unchanged since the record that the
store gives back. If the store is in memory, it held for the linter then what it had held at
first. -/
structure Job.Sparing (digest : Digest) (runner : Runner σ) (first : RunState σ) (j : Job)
    (r : RunRecord) (now : RunState σ) : Prop where
  before : RunState.Acts digest runner first now
  kept : first.Keeps j.name now
  load : now.store.load digest now.tree j.name = .ok (some r)
  unchanged : CacheStore.verdictOf digest now.tree j.paths j.target.settings.checkHash
    j.target.fingerprint (some r) = .ok .unchanged

namespace Job

variable {digest : Digest} {runner : Runner σ} {j j' : Job} {o : Outcome} {r r' : RunRecord}
  {first last seen recorded first' now : RunState σ}

/-- A record in memory that is handed on to another run is found there. -/
theorem Sparing.eq_of_memory (h : j'.Sparing digest runner first' r' now)
    (hsighting : j.Sighting digest runner first last o r seen recorded) (hname : j'.name = j.name)
    {records : List (String × RunRecord)} (hmemory : first.store = .memory records)
    (hhanded : first'.store = last.store) : r' = r := by
  have hacts : RunState.Acts digest runner first recorded :=
    (hsighting.before.tail (.call seen j.call)).trans hsighting.between
  obtain ⟨⟨older, holder⟩, -⟩ := hacts.memory (P := fun _ => True) hmemory
    (fun _ _ _ => id) trivial
  have hsaved : (recorded.afterSave digest r).store = .memory (Keyed.put older r.name r) := by
    rw [RunState.afterSave, holder]
    rfl
  have hrname : r.name = j.name := (CacheStore.recordOf_spec hsighting.record).1
  -- What was put into memory stays there until the end of the run, and until the next finds it.
  obtain ⟨left, hleft, hlookup⟩ := hsighting.kept _ hsaved
  obtain ⟨found, hfound, hlookup'⟩ := h.kept left (hhanded.trans hleft)
  rw [hname, hlookup, ← hrname, Keyed.lookup_put_self] at hlookup'
  have hload := h.load
  rw [hfound, CacheStore.load, hname, ← hrname, hlookup'] at hload
  exact (Option.some.inj (Except.ok.inj hload)).symm

/-- A record in an entry file is found as long as it is the text of that file. -/
theorem Sparing.eq_of_entry (h : j'.Sparing digest runner first' r' now) {dir : Path}
    (hdir : now.store = .directory dir)
    (hentry : now.tree.read (CacheStore.entryPath digest dir j'.name) = .ok (Text.utf8 r.text))
    (hshort : r.IsShort) : r' = r := by
  have hload := h.load
  rw [hdir, CacheStore.load] at hload
  split at hload
  · cases hload
  · simp only [hentry, CacheStore.readEntry_text hshort] at hload
    split at hload
    · exact (Option.some.inj (Except.ok.inj hload)).symm
    · cases hload

/-- The streams of which digests are taken for the record of one job and for the verdict on another.
-/
def streams (j j' : Job) (recorded now : FileTree) : Set (List UInt8) :=
  {stream | stream = Path.stream j.paths ∨ stream = Path.stream j'.paths ∨
    recorded.contentStream j.paths = .ok stream ∨ now.contentStream j'.paths = .ok stream}

/-- Every file of a job has a content that its command saw when it was called, or left behind. -/
def Knows (j : Job) (seen left t : FileTree) : Prop :=
  ∀ p ∈ j.paths, t.read p = seen.read p ∨ t.read p = left.read p

/-- A command knows its files where nobody else has written them. -/
theorem knows_of_sameBytes {seen left t : FileTree} (h : left.SameBytes t j.paths) :
    j.Knows seen left t := fun p hp => .inr (h p hp)

theorem knows_congr {seen left t t' : FileTree} (h : t.SameBytes t' j.paths) :
    j.Knows seen left t' ↔ j.Knows seen left t :=
  forall₂_congr fun p hp => by rw [h p hp]

end Job

namespace FileTree

variable (setup : RunSetup σ) (options : RunOptions) (c : Config) (t : FileTree) (x : σ)

/-- The states in which the turns of a run begin and end. -/
structure Spans (cacheDir : Path) (first last : RunState σ) : Prop where
  cachePath : c.cachePath setup.homes = .ok cacheDir
  tree : first.tree = t
  runner : first.runner = x
  store : first.store = options.storeFor c cacheDir
  lastTree : last.tree = (t.run setup options c x).state.tree
  lastRunner : last.runner = (t.run setup options c x).state.runner
  lastStore : last.store = (t.run setup options c x).state.store

section

variable {setup options c t x}

theorem Yields.spans {outcomes : List Outcome} {cacheDir skipped : Path} {first : RunState σ}
    {targets : List Target} {p : Pool σ}
    (h : Yields setup options c t x outcomes cacheDir skipped first targets p) :
    Spans setup options c t x cacheDir first p.state :=
  ⟨h.cachePath, h.tree, h.runner, h.store, by rw [h.state]; rfl, by rw [h.state]; rfl,
    by rw [h.state]; rfl⟩

/-- An outcome of a run belongs to the slot of the linter of its name. -/
theorem Yields.exists_slot {outcomes : List Outcome} {cacheDir skipped : Path} {first : RunState σ}
    {targets : List Target} {p : Pool σ}
    (h : Yields setup options c t x outcomes cacheDir skipped first targets p)
    (hnames : (c.linters.map (·.name)).Nodup) {s : LinterSettings} (hs : s ∈ c.linters)
    {o : Outcome} (ho : o ∈ outcomes) (hprogram : o.program = s.name) :
    ∃ (target : Target) (slot : Slot), t.Aims setup.digest setup.homes c.root s target ∧
      slot.Sighted (setup.terms (options.jobCount c) c skipped) first p.state target ∧
      slot.result = .ok o := by
  have hdistinct : (targets.map Target.name).Nodup := by rwa [names_of_aims h.aims]
  obtain ⟨looked, htargets, hslots⟩ :=
    (Pool.sighted_run (setup.terms (options.jobCount c) c skipped) hdistinct first
      (setup.schedule targets.length)).slots
  rw [← h.pool] at htargets hslots
  -- Every target was looked at, since there is a slot for each.
  have hlooked : ∀ target ∈ looked, target ∈ targets :=
    fun target htarget => htargets ▸ List.mem_append_left _ htarget
  obtain ⟨slot, hslot, hresult⟩ := exists_of_mem_forall₂ h.results ho
  obtain ⟨target, htarget, hsighted⟩ := exists_of_mem_forall₂ hslots hslot
  obtain ⟨s', hs', haim⟩ := exists_of_mem_forall₂ h.aims (hlooked target htarget)
  have hname : s'.name = s.name := by
    rw [← hprogram, hsighted.program hresult, Target.name, haim.settings]
  obtain rfl : s' = s := List.inj_on_of_nodup_map hnames hs' hs hname
  exact ⟨target, slot, haim, hsighted, hresult⟩

end

/-- A linter that was run goes back to the state in which its command was called, and to that in
which its record was made. -/
theorem exists_sighting {outcomes : List Outcome}
    (h : (t.run setup options c x).outcomes = .ok outcomes)
    (hnames : (c.linters.map (·.name)).Nodup) {s : LinterSettings} (hs : s ∈ c.linters)
    {o : Outcome} (ho : o ∈ outcomes) (hprogram : o.program = s.name) (hok : o.status = .ok) :
    ∃ (cacheDir : Path) (target : Target) (first last seen recorded : RunState σ) (r : RunRecord),
      Spans setup options c t x cacheDir first last ∧
      t.Aims setup.digest setup.homes c.root s target ∧
      Job.Sighting setup.digest setup.runner first last ⟨target, o.files⟩ o r seen recorded := by
  obtain ⟨cacheDir, skipped, first, targets, p, hyields⟩ := exists_yields setup options c t x h
  obtain ⟨target, slot, haim, hsighted, hresult⟩ := hyields.exists_slot hnames hs ho hprogram
  cases slot with
  | idle o' =>
    obtain rfl : o' = o := Except.ok.inj hresult
    obtain ⟨_, -, -, hfound⟩ := hsighted.start
    cases hfound with
    | nothing | spared => exact nomatch hok
  | job j progress =>
    obtain rfl := hsighted.target_eq
    cases progress with
    | ended ended =>
      obtain rfl : ended = .ok o := hresult
      obtain ⟨r, seen, recorded, hsighting⟩ := hsighted.progress _ _ rfl
      refine ⟨cacheDir, j.target, first, p.state, seen, recorded, r, hyields.spans, haim, ?_⟩
      rw [hsighting.delivers.files]
      exact hsighting
    | _ => exact nomatch hresult

/-- A linter that is spared is unchanged since a record that its store gives back. -/
theorem exists_sparing {outcomes : List Outcome}
    (h : (t.run setup options c x).outcomes = .ok outcomes)
    (hnames : (c.linters.map (·.name)).Nodup) {s : LinterSettings} (hs : s ∈ c.linters)
    {o : Outcome} (ho : o ∈ outcomes) (hprogram : o.program = s.name)
    (hcached : o.status = .cached) :
    ∃ (cacheDir : Path) (target : Target) (first last now : RunState σ) (r : RunRecord),
      Spans setup options c t x cacheDir first last ∧
      t.Aims setup.digest setup.homes c.root s target ∧
      Job.Sparing setup.digest setup.runner first ⟨target, o.files⟩ r now := by
  obtain ⟨cacheDir, skipped, first, targets, p, hyields⟩ := exists_yields setup options c t x h
  obtain ⟨target, slot, haim, hsighted, hresult⟩ := hyields.exists_slot hnames hs ho hprogram
  cases slot with
  | idle o' =>
    obtain rfl : o' = o := Except.ok.inj hresult
    obtain ⟨now, hacts, hkept, hfound⟩ := hsighted.start
    cases hfound with
    | nothing => exact nomatch hcached
    | spared _ _ verdict =>
      obtain ⟨r, hload, hunchanged⟩ := CacheStore.verdict_eq_unchanged_iff.mp verdict
      exact ⟨cacheDir, target, first, p.state, now, r, hyields.spans, haim,
        ⟨hacts, hkept, hload, hunchanged⟩⟩
  | job j progress =>
    cases progress with
    | ended ended =>
      obtain rfl : ended = .ok o := hresult
      obtain ⟨r, seen, recorded, hsighting⟩ := hsighted.progress _ _ rfl
      exact absurd hcached hsighting.delivers.status.2
    | _ => exact nomatch hresult

/-- A linter that compares contents passes in a run, and the next one spares it. Then its command
was called in a state `seen` of the run and its record `r` made in a state `recorded`, with steps of
other jobs between, and the next run found a record `r'` in a state `now`. It is the one that was
made if it was handed on in memory, or is still the text of its entry file. If so, the files are the
same and what they were when it was made, as far as digests, paths and streams tell files apart. So
the command knows its files exactly if it knew them then: every file that others had written after
the command ended had again a content that the command saw or left behind. It does if they wrote
none. -/
theorem cached_contents_exact (schedule : Nat → List Turn) (options' : RunOptions)
    {s : LinterSettings} {outcomes outcomes' : List Outcome} {o o' : Outcome} (hs : s ∈ c.linters)
    (hnames : (c.linters.map (·.name)).Nodup) (hhash : s.checkHash = true)
    (hfirst : (t.run setup options c x).outcomes = .ok outcomes)
    (hsecond : ((t.run setup options c x).state.tree.run { setup with schedule } options' c
      (t.run setup options c x).state.runner).outcomes = .ok outcomes')
    (ho : o ∈ outcomes) (hprogram : o.program = s.name) (hok : o.status = .ok)
    (ho' : o' ∈ outcomes') (hprogram' : o'.program = s.name) (hcached : o'.status = .cached) :
    ∃ (cacheDir cacheDir' : Path) (target target' : Target)
      (first last seen recorded first' last' now : RunState σ) (r r' : RunRecord),
      let j : Job := ⟨target, o.files⟩
      let j' : Job := ⟨target', o'.files⟩
      let left := seen.afterCall setup.runner j.call
      (Spans setup options c t x cacheDir first last ∧
        t.Aims setup.digest setup.homes c.root s target ∧
        j.Sighting setup.digest setup.runner first last o r seen recorded) ∧
      (Spans { setup with schedule } options' c (t.run setup options c x).state.tree
          (t.run setup options c x).state.runner cacheDir' first' last' ∧
        (t.run setup options c x).state.tree.Aims setup.digest setup.homes c.root s target' ∧
        j'.Sparing setup.digest setup.runner first' r' now) ∧
      (∀ records, first.store = .memory records → first'.store = last.store → r' = r) ∧
      (∀ dir, now.store = .directory dir →
        now.tree.read (CacheStore.entryPath setup.digest dir s.name) = .ok (Text.utf8 r.text) →
        r.IsShort → r' = r) ∧
      (r' = r → Set.InjOn setup.digest (j.streams j' recorded.tree now.tree) →
        Set.InjOn Path.toString {p | p ∈ j.paths ∨ p ∈ j'.paths} →
        recorded.tree.SameSizes now.tree j.paths ∨
          recorded.tree.PlainButLast j.paths ∧ now.tree.PlainButLast j.paths →
        j'.paths = j.paths ∧ recorded.tree.SameBytes now.tree j.paths ∧
          (j.Knows seen.tree left.tree now.tree ↔ j.Knows seen.tree left.tree recorded.tree) ∧
          (left.tree.SameBytes recorded.tree j.paths → j.Knows seen.tree left.tree now.tree)) := by
  obtain ⟨cacheDir, target, first, last, seen, recorded, r, hspans, haim, hsighting⟩ :=
    exists_sighting setup options c t x hfirst hnames hs ho hprogram hok
  obtain ⟨cacheDir', target', first', last', now, r', hspans', haim', hsparing⟩ :=
    exists_sparing _ options' c _ _ hsecond hnames hs ho' hprogram' hcached
  have hname : target.name = s.name := congrArg LinterSettings.name haim.settings
  have hname' : target'.name = s.name := congrArg LinterSettings.name haim'.settings
  refine ⟨cacheDir, cacheDir', target, target', first, last, seen, recorded, first', last', now, r,
    r', ⟨hspans, haim, hsighting⟩, ⟨hspans', haim', hsparing⟩, ?_, ?_, ?_⟩
  · intro records hmemory hhanded
    exact hsparing.eq_of_memory hsighting (hname'.trans hname.symm) hmemory hhanded
  · intro dir hdir hentry hshort
    rw [← hname'] at hentry
    exact hsparing.eq_of_entry hdir hentry hshort
  · rintro rfl hdigest htexts halike
    have hrecord := hsighting.record
    have hunchanged := hsparing.unchanged
    simp only [Job.recordIn, haim.settings, hhash] at hrecord
    rw [haim'.settings, hhash] at hunchanged
    -- Paths are compared first, so that contents are read at the same places.
    have hpaths : Job.paths ⟨target', o'.files⟩ = Job.paths ⟨target, o.files⟩ := by
      refine eq_of_map_eq (htexts.mono fun p => Or.symm) ?_
      exact CacheStore.samePaths_of_unchanged hrecord hunchanged
        (hdigest.mono fun _ hstream => hstream.imp_right .inl)
    rw [Job.streams, hpaths] at hdigest
    rw [hpaths] at hunchanged
    have hsame := CacheStore.sameBytes_of_unchanged hrecord hunchanged
      (hdigest.mono fun _ hstream => .inr (.inr hstream)) halike
    exact ⟨hpaths, hsame, Job.knows_congr hsame, fun hunwritten =>
      (Job.knows_congr hsame).mpr (Job.knows_of_sameBytes hunwritten)⟩

end FileTree

/-! ### A file written between a command and its record -/

namespace Sample

/-- A tree with one file of these bytes. -/
def holding (bytes : List UInt8) (mtime : Int) : FileTree :=
  { root := .dir 0 [("x", .file { content := bytes, mtime, executable := false })]
    cwd := [], clock := 2 }

/-- A digest that spells the bytes out. -/
def spelled : Digest := fun bytes => String.ofList (bytes.map fun b => Char.ofNat b.toNat)

/-- A runner on that file: the command `a` tells its bytes, and every other writes the letter `B`.
-/
def rewriting : Runner Unit := fun call (t, x) =>
  if call.command = "a" then
    (⟨[], [], .ok ⟨0, spelled ((t.read ⟨.root, ["x"]⟩).toOption.getD [])⟩⟩, (t, x))
  else (⟨[], [], .ok ⟨0, ""⟩⟩, (holding [66] 3, x))

/-- Runs with these, in the order of a schedule. -/
def sharing (schedule : Nat → List Turn) : RunSetup Unit :=
  { digest := spelled, homes, runner := rewriting, schedule }

/-- Two linters on the file, of which the first compares contents. -/
def sharers : Config :=
  config false [{ linter "a" "a" with checkHash := true }, linter "b" "b"]

/-- The schedule of two jobs in which the second runs its command between the command of the first
and its record. -/
def crossed : List Turn :=
  [.dispatch, .dispatch, .work 0, .work 0, .work 1, .work 1, .work 0, .work 1]

/-- A run on the letter `A` with two jobs under way at once, in this order. -/
def crossedRun : RunResult Unit :=
  (holding [65] 1).run (sharing fun _ => crossed)
    { options (some (.memory [("z", .failed "z" "")])) with jobs := some 2 } sharers ()

/-- The next run. -/
def nextRun : RunResult Unit :=
  crossedRun.state.tree.run (sharing inOrder) { options crossedRun.store with jobs := some 2 }
    sharers ()

end Sample

namespace FileTree

/-- In that run, the first linter has a state in which its command was called and one in which its
record was made, and it is this record that spares it in the next run. -/
theorem cached_contents_exact_crossed :
    ∃ (target : Target) (o : Outcome) (first last seen recorded first' now : RunState Unit)
      (r : RunRecord), last.tree = Sample.crossedRun.state.tree ∧ o.output = "A" ∧
      Job.Sighting Sample.spelled Sample.rewriting first last ⟨target, ["x"]⟩ o r seen recorded ∧
      ∃ target', Job.Sparing Sample.spelled Sample.rewriting first' ⟨target', ["x"]⟩ r now := by
  have hfirst : Sample.crossedRun.outcomes = .ok
      [{ program := "a", status := .ok, exitStatus := some 0, output := "A"
         lines := [⟨"A", none⟩], error := none, files := ["x"], modified := ["x"] },
       { program := "b", status := .ok, exitStatus := some 0, output := "", lines := []
         error := none, files := ["x"], modified := ["x"] }] := by
    cbv
  have hsecond : Sample.nextRun.outcomes =
      .ok [.idle "a" .cached ["x"], .idle "b" .cached ["x"]] := by
    cbv
  obtain ⟨cacheDir, cacheDir', target, target', first, last, seen, recorded, first', _, now, r, r',
      ⟨hspans, -, hsighting⟩, ⟨hspans', -, hsparing⟩, hmemory, -⟩ :=
    cached_contents_exact (Sample.sharing fun _ => Sample.crossed) _ Sample.sharers _ () inOrder _
      List.mem_cons_self (by decide) rfl hfirst hsecond List.mem_cons_self rfl rfl
      List.mem_cons_self rfl rfl
  obtain rfl : r' = r := by
    -- The store of the first run is handed on, so the record is found that was made there.
    have hstore : Sample.crossedRun.store = some Sample.crossedRun.state.store := by cbv
    have hheld : Sample.crossedRun.state.store.isEmptyMemory = false := by cbv
    refine hmemory _ hspans.store (hspans'.store.trans (Eq.trans ?_ hspans.lastStore.symm))
    rw [RunOptions.storeFor, Sample.options, hstore, Option.filter_some, hheld]
    rfl
  exact ⟨target, _, first, last, seen, recorded, first', now, r', hspans.lastTree, rfl, hsighting,
    target', hsparing⟩

/-- The command of the first linter never writes a file. It saw the letter `A`, the file holds the
letter `B`, and the next run spares the linter. -/
theorem cached_contents_unseen :
    (∀ call world, call.command = "a" → (Sample.rewriting call world).2 = world) ∧
      Sample.crossedRun.outcomes.map (·.map fun o => (o.program, o.status, o.output)) =
        .ok [("a", .ok, "A"), ("b", .ok, "")] ∧
      Sample.crossedRun.state.tree.read ⟨.root, ["x"]⟩ = .ok [66] ∧
      Sample.nextRun.outcomes.map (·.map fun o => (o.program, o.status)) =
        .ok [("a", .cached), ("b", .cached)] := by
  refine ⟨fun call world hcall => ?_, ?_, ?_, ?_⟩
  · obtain ⟨t, x⟩ := world
    simp only [Sample.rewriting, hcall, if_true]
  · cbv
  · cbv
  · cbv

end FileTree

end LinterSuite
