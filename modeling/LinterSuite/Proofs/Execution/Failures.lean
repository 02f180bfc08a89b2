import LinterSuite.Proofs.Execution.Outputs

/-!
# The output of a command that failed

The invocations of a command stop at the first that does not come to its own end. If that one ran
out of time, everything that was written up to then is kept. If it could not be started, or was
refused, nothing is kept, not even what the earlier ones wrote.

## Main definitions

* `Machine.Stops`: how the invocations of a command stop with an error

## Main results

* `Machine.stops_of_invokeAll`: invocations that do not all end well stop in this way
* `Machine.Stops.last`: nothing is invoked behind an invocation that did not come to its own end
* `Machine.Stops.kept`: all output is kept, or none
* `Machine.failed_output_exact`: what is kept of the output of a command that failed
* `Machine.failed_output_lost`: what earlier invocations wrote may be lost
-/

namespace LinterSuite

theorem join_eq_empty_iff {texts : List String} :
    String.join texts = "" ↔ ∀ text ∈ texts, text = "" := by
  rw [← String.toList_inj, String.toList_join]
  simp

/-- What cannot be invoked at all fails with a reason in words, and without output. -/
theorem FileTree.failed_executable {t : FileTree} {env : Environment} {command : String}
    {workDir : Path} {f : ExecutionFailure}
    (h : t.executable env command workDir = .error (.failed f)) :
    ∃ reason, f = ⟨.reason reason, [command], ""⟩ := by
  unfold executable at h
  split at h
  · split at h
    · exact nomatch h
    · dsimp only at h
      split at h
      · exact nomatch h
      · exact nomatch h
      · obtain rfl := RunError.failed.inj (Except.error.inj h)
        exact ⟨_, rfl⟩
  · split at h
    · exact nomatch h
    · obtain rfl := RunError.failed.inj (Except.error.inj h)
      exact ⟨_, rfl⟩

namespace Machine

/-! ### How invocations stop -/

/-- How the invocations of a command stop with an error, behind earlier ones that wrote `earlier`.
The next one is not made at all, or it does not come to its own end, or it does and a later one
stops. -/
inductive Stops : (earlier : String) → List (Invocation × Ending) → RunError → Prop
  | refused (earlier reason : String) (command : List String) :
      Stops earlier [] (.because reason command)
  | here {earlier : String} {inv : Invocation} {ending : Ending} {e : RunError}
      (fails : settle inv earlier ending = .error e) : Stops earlier [(inv, ending)] e
  | later {earlier : String} {inv : Invocation} {status : Int} {output : List UInt8}
      {spawned : List (Invocation × Ending)} {e : RunError}
      (rest : Stops (earlier ++ Text.ofUtf8Lossy output) spawned e) :
      Stops earlier ((inv, .exited status output) :: spawned) e

variable {σ : Type} {m : Machine σ} {env : Environment} {call : RunCall} {s : σ}
  {inv : Invocation} {ending : Ending} {spawned made after : List (Invocation × Ending)}
  {earlier : String} {e : RunError} {f : ExecutionFailure}

/-- Invocations that do not all end well stop in this way. -/
theorem stops_of_invokeAll {results : List (Int × String)} {invs : List Invocation}
    (h : (m.invokeAll results invs s).2.1 = .error e) :
    Stops (String.join (results.map (·.2))) (m.invokeAll results invs s).1 e := by
  induction invs generalizing results s with
  | nil => exact nomatch h
  | cons inv invs ih =>
    rcases m.invokeAll_cons results inv invs s with
        ⟨-, hall⟩ | ⟨ending, s', e', -, hsettle, hall⟩ | ⟨status, output, s', -, hall⟩ <;>
      rw [hall] at h ⊢
    · obtain rfl := Except.error.inj h
      exact .refused _ _ _
    · obtain rfl := Except.error.inj h
      exact .here hsettle
    · have hjoin : String.join ((results ++ [(status, Text.ofUtf8Lossy output)]).map (·.2)) =
          String.join (results.map (·.2)) ++ Text.ofUtf8Lossy output := by simp
      refine .later ?_
      rw [← hjoin]
      exact ih h

/-- Nothing is invoked behind an invocation that did not come to its own end, and the error is what
its ending means behind the output of those before it. -/
theorem Stops.last (h : Stops earlier (made ++ (inv, ending) :: after) e)
    (hending : ending.status? = none) :
    after = [] ∧ settle inv (earlier ++ String.join (made.map (·.2.text))) ending = .error e := by
  -- On the invocations in front, general in what was written before them.
  induction made generalizing earlier with
  | nil =>
    cases h with
    | here fails => exact ⟨rfl, by simpa using fails⟩
    | later rest => exact nomatch hending
  | cons first made ih =>
    generalize hspawned : first :: made ++ (inv, ending) :: after = spawned at h
    cases h with
    | refused => cases hspawned
    | here fails => simp at hspawned
    | later rest =>
      obtain ⟨rfl, rfl⟩ := List.cons.inj hspawned
      obtain ⟨hafter, hsettle⟩ := ih rest
      refine ⟨hafter, ?_⟩
      rwa [List.map_cons, String.join_cons, ← String.append_assoc]

/-- If time ran out, all output is kept. Otherwise none is. -/
theorem Stops.kept (h : Stops earlier spawned (.failed f)) :
    (∃ seconds, f.cause = .timeout seconds ∧
      f.output = earlier ++ String.join (spawned.map (·.2.text))) ∨
    ∃ reason, f.cause = .reason reason ∧ f.output = "" := by
  generalize he : RunError.failed f = e at h
  induction h with
  | refused earlier reason command =>
    obtain rfl := RunError.failed.inj he
    exact .inr ⟨_, rfl, rfl⟩
  | @here earlier inv ending e fails =>
    subst he
    cases ending with
    | exited | nullInArgument | unwaited => exact nomatch fails
    | timedOut output =>
      obtain rfl := RunError.failed.inj (Except.error.inj fails)
      exact .inl ⟨_, rfl, by simp [Ending.text]⟩
    | unstartable reason =>
      obtain rfl := RunError.failed.inj (Except.error.inj fails)
      exact .inr ⟨_, rfl, rfl⟩
  | later rest ih =>
    -- What this invocation wrote is in front of the rest for what comes later.
    rcases ih he with ⟨seconds, hcause, houtput⟩ | hreason
    · refine .inl ⟨seconds, hcause, ?_⟩
      rw [houtput, List.map_cons, String.join_cons, String.append_assoc]
      rfl
    · exact .inr hreason

/-! ### What is kept of a command -/

theorem stops_of_run (h : (m.run env call s).1.result = .error (.failed f)) :
    Stops "" (m.run env call s).1.spawned (.failed f) := by
  unfold run at h ⊢
  dsimp only at h ⊢
  split at h
  · exact nomatch h
  · obtain rfl := RunError.failed.inj (Except.error.inj h)
    exact .refused _ _ _
  · split at h
    · next e hexecutable =>
      obtain rfl := Except.error.inj h
      obtain ⟨reason, rfl⟩ := FileTree.failed_executable hexecutable
      exact .refused _ _ _
    · exact stops_of_invokeAll (Except.map_eq_error_iff.mp h)

/-- If an invocation of a command does not come to its own end, it is the last, and its ending
decides what became of the command. -/
theorem settle_of_spawned
    (hspawned : (m.run env call s).1.spawned = made ++ (inv, ending) :: after)
    (hending : ending.status? = none) :
    after = [] ∧ ∃ e, settle inv (String.join (made.map (·.2.text))) ending = .error e ∧
      (m.run env call s).1.result = .error e := by
  cases hresult : (m.run env call s).1.result with
  | ok raw =>
    -- Every process of a command that is run to its end has a status.
    obtain ⟨statuses, hstatuses, -, -⟩ := statuses_of_run hresult
    have hmem : none ∈ statuses.map some := by
      rw [← hstatuses, hspawned, ← hending]
      simp
    simp at hmem
  | error e =>
    rcases m.run_cases env call s with ⟨e', hrun⟩ | ⟨executable, hrun⟩
    · simp [hrun] at hspawned
    · rw [hrun] at hspawned hresult
      have hstops := stops_of_invokeAll (Except.map_eq_error_iff.mp hresult)
      dsimp only at hspawned
      rw [hspawned] at hstops
      obtain ⟨hafter, hsettle⟩ := hstops.last hending
      rw [List.map_nil, String.join_nil, String.empty_append] at hsettle
      exact ⟨hafter, e, hsettle, rfl⟩

end Machine

/-- An outcome of a command that failed says what was kept of its output. -/
theorem Job.output_of_failed {j : Job} {before after : Observation} {f : ExecutionFailure}
    {o : Outcome} (h : j.outcome before after (.error (.failed f)) = .ok o) :
    o.status = .error ∧ o.output = f.output ∧ o.lines.map (·.text) = Text.lines f.output := by
  cases delivers_of_outcome h with
  | failed read => exact ⟨rfl, rfl, Grammar.map_text_of_parseOutput read⟩

namespace Machine

variable {σ : Type}

/-- An invocation that ran out of time is the last of its command, which fails with the outputs of
all invocations up to there. One that cannot be started is the last, too, but its command fails
without output. So what is kept of a command that failed, and what its outcome says, is everything
that its processes wrote exactly if time ran out or they wrote nothing. -/
theorem failed_output_exact (m : Machine σ) (env : Environment) (call : RunCall) (s : σ) :
    let r := (m.run env call s).1
    (∀ (made after : List (Invocation × Ending)) (inv : Invocation) (output : List UInt8),
      r.spawned = made ++ (inv, .timedOut output) :: after →
      after = [] ∧ r.result = .error (.failed ⟨.timeout (secondsOf inv.timeout), inv.argv,
        String.join (made.map (·.2.text)) ++ Text.ofUtf8Lossy output⟩)) ∧
    (∀ (made after : List (Invocation × Ending)) (inv : Invocation) (reason : String),
      r.spawned = made ++ (inv, .unstartable reason) :: after →
      after = [] ∧ r.result = .error (.failed
        ⟨.reason ("Cannot spawn '" ++ inv.argv.headD "" ++ "': " ++ reason), inv.argv, ""⟩)) ∧
    ∀ f, r.result = .error (.failed f) →
      (f.output = String.join r.outputs ↔
        (∃ seconds, f.cause = .timeout seconds) ∨ ∀ text ∈ r.outputs, text = "") ∧
      ∀ (j : Job) (before after : Observation) (o : Outcome),
        j.outcome before after r.result = .ok o →
          o.status = .error ∧ o.output = f.output ∧ o.lines.map (·.text) = Text.lines f.output := by
  intro r
  refine ⟨fun made after inv output hspawned => ?_, fun made after inv reason hspawned => ?_,
    fun f hresult => ⟨?_, fun j before after o ho => ?_⟩⟩
  · obtain ⟨hafter, e, hsettle, hresult⟩ := settle_of_spawned hspawned rfl
    obtain rfl := Except.error.inj hsettle
    exact ⟨hafter, hresult⟩
  · obtain ⟨hafter, e, hsettle, hresult⟩ := settle_of_spawned hspawned rfl
    obtain rfl := Except.error.inj hsettle
    exact ⟨hafter, hresult⟩
  · rcases (stops_of_run hresult).kept with ⟨seconds, hcause, houtput⟩ | ⟨reason, hcause, houtput⟩
    · rw [String.empty_append] at houtput
      exact ⟨fun _ => .inl ⟨seconds, hcause⟩, fun _ => houtput⟩
    · rw [houtput, hcause, eq_comm, join_eq_empty_iff]
      simp
  · rw [hresult] at ho
    exact Job.output_of_failed ho

end Machine

namespace Sample

/-- Processes that write a line, but for the one with the second file, which comes to another end.
-/
def lineFirst (ending : Ending) (file : String) : Ending :=
  if file = "y" then ending else .exited 0 (Text.utf8 "one\n")

/-- The invocation with one of the files. -/
def invocationOn (file : String) : Invocation := ⟨["/x", file], ⟨.root, []⟩, none⟩

/-- The job of a linter with that command. -/
def jobOnEach : Job := ⟨⟨linter "a" "/x", ⟨.root, []⟩, [], ""⟩, ["x", "y"]⟩

end Sample

namespace Machine

/-- The second of two processes runs out of time, and the outputs of both are kept. Another time it
cannot be started, and neither is. -/
theorem failed_output_exact_second_late :
    let late := Sample.endingOnEach (Sample.lineFirst (.timedOut (Text.utf8 "two")))
    let missing := Sample.endingOnEach (Sample.lineFirst (.unstartable "gone"))
    late.result = .error (.failed ⟨.timeout (.zero false), ["/x", "y"], "one\ntwo"⟩) ∧
      (∃ o, Sample.jobOnEach.outcome [] [] late.result = .ok o ∧ o.output = "one\ntwo" ∧
        o.lines.map (·.text) = ["one", "two"]) ∧
      missing.result = .error (.failed ⟨.reason "Cannot spawn '/x': gone", ["/x", "y"], ""⟩) := by
  intro late missing
  have hlate : (Sample.endingOnEach (Sample.lineFirst (.timedOut (Text.utf8 "two")))).spawned =
      [(Sample.invocationOn "x", .exited 0 (Text.utf8 "one\n"))] ++
        (Sample.invocationOn "y", .timedOut (Text.utf8 "two")) :: [] := by cbv
  have hmissing : (Sample.endingOnEach (Sample.lineFirst (.unstartable "gone"))).spawned =
      [(Sample.invocationOn "x", .exited 0 (Text.utf8 "one\n"))] ++
        (Sample.invocationOn "y", .unstartable "gone") :: [] := by cbv
  obtain ⟨htimedOut, -, hkept⟩ := failed_output_exact
    (Sample.endingBy (Sample.lineFirst (.timedOut (Text.utf8 "two")))) Sample.environment
    Sample.onEach (Sample.tree, ())
  obtain ⟨-, hunstartable, -⟩ := failed_output_exact
    (Sample.endingBy (Sample.lineFirst (.unstartable "gone"))) Sample.environment
    Sample.onEach (Sample.tree, ())
  have hresult : late.result =
      .error (.failed ⟨.timeout (.zero false), ["/x", "y"], "one\ntwo"⟩) :=
    (htimedOut _ _ _ _ hlate).2.trans (by cbv)
  have houtcome : ∃ o, Sample.jobOnEach.outcome [] [] late.result = .ok o :=
    ⟨_, by rw [hresult]; rfl⟩
  obtain ⟨o, ho⟩ := houtcome
  obtain ⟨-, houtput, hlines⟩ := (hkept _ hresult).2 _ _ _ o ho
  exact ⟨hresult, ⟨o, ho, houtput, hlines⟩, (hunstartable _ _ _ _ hmissing).2⟩

/-- The second of two processes cannot be started, and what the first one wrote is lost. -/
theorem failed_output_lost :
    let r := Sample.endingOnEach (Sample.lineFirst (.unstartable "gone"))
    String.join r.outputs = "one\n" ∧
      r.result = .error (.failed ⟨.reason "Cannot spawn '/x': gone", ["/x", "y"], ""⟩) ∧
      (Sample.jobOnEach.outcome [] [] r.result).map (fun o => (o.output, o.lines)) =
        .ok ("", []) := by
  have houtput : String.join
      (Sample.endingOnEach (Sample.lineFirst (.unstartable "gone"))).outputs = "one\n" := by cbv
  have hresult : (Sample.endingOnEach (Sample.lineFirst (.unstartable "gone"))).result =
      .error (.failed ⟨.reason "Cannot spawn '/x': gone", ["/x", "y"], ""⟩) := by cbv
  refine ⟨houtput, hresult, ?_⟩
  rw [hresult]
  rfl

end Machine

end LinterSuite
