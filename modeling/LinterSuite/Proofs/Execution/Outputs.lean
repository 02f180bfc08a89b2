import LinterSuite.Proofs.Execution.Statuses
import LinterSuite.Proofs.Run.Traces
import LinterSuite.Proofs.Text.Seams

/-!
# The output of a command

What the invocations of a command wrote is joined as it is, and read as one text. A line that an
invocation left open runs on into what the next one wrote, so joined outputs are read one after the
other exactly if their lines keep apart.

## Main definitions

* `Ending.text`, `RunReport.outputs`: what the processes of a command wrote
* `Sample.endingBy`, `Sample.onEach`: a command that is invoked for each of two files

## Main results

* `Machine.output_of_run`: a command that is run to its end has written what its processes wrote
* `Grammar.parseOutput_join`: joined outputs that keep apart are read one after the other
* `Grammar.keepApart_of_parseOutput`: if they do not, they are read as something else
* `Machine.parsed_output_exact`: how the output of a command that is run to its end is read
* `Machine.parsed_output_runs_on`: a line that is left open takes in the next one
-/

namespace LinterSuite

/-! ### What processes wrote -/

/-- What a process wrote, as text. -/
def Ending.text : Ending → String
  | exited _ output | timedOut output => Text.ofUtf8Lossy output
  | unstartable _ | nullInArgument | unwaited _ => ""

/-- What the processes of a command wrote, one after the other. -/
def RunReport.outputs (r : RunReport) : List String := r.spawned.map (·.2.text)

namespace Machine

variable {σ : Type} {m : Machine σ} {env : Environment} {call : RunCall} {s : σ}

/-- Invocations that end well add what they wrote to what was written before. -/
theorem outputs_of_invokeAll {earlier results : List (Int × String)} {invs : List Invocation}
    (h : (m.invokeAll earlier invs s).2.1 = .ok results) :
    results.map (·.2) = earlier.map (·.2) ++ (m.invokeAll earlier invs s).1.map (·.2.text) := by
  induction invs generalizing earlier s with
  | nil =>
    obtain rfl := Except.ok.inj h
    simp [invokeAll]
  | cons inv invs ih =>
    rcases m.invokeAll_cons earlier inv invs s with
      ⟨-, hall⟩ | ⟨ending, s', e, -, -, hall⟩ | ⟨status, output, s', -, hall⟩ <;> rw [hall] at h ⊢
    · cases h
    · cases h
    · rw [ih h]
      simp [Ending.text]

/-- A command that is run to its end has written what its processes wrote. -/
theorem output_of_run {raw : RawOutput} (h : (m.run env call s).1.result = .ok raw) :
    raw.output = String.join (m.run env call s).1.outputs := by
  rcases m.run_cases env call s with ⟨e, hrun⟩ | ⟨executable, hrun⟩
  · rw [hrun] at h
    exact nomatch h
  · rw [hrun] at h ⊢
    obtain ⟨results, hresults, rfl⟩ := Except.map_eq_ok_iff.mp h
    exact congrArg String.join (outputs_of_invokeAll hresults)

end Machine

/-! ### Reading joined outputs -/

/-- Computations over parts that are joined are made part by part. -/
theorem mapM_flatMap {ε α β γ : Type} (f : β → Except ε γ) (g : α → List β) (xs : List α) :
    (xs.flatMap g).mapM f = (xs.mapM fun x => (g x).mapM f).map List.flatten := by
  induction xs with
  | nil => rfl
  | cons x xs ih =>
    rw [List.flatMap_cons, List.mapM_append, List.mapM_cons, ih]
    cases (g x).mapM f with
    | error e => rfl
    | ok ys => cases xs.mapM fun x => (g x).mapM f <;> rfl

namespace Grammar

variable {grammars : List Grammar} {program : String}

/-- The lines that are read are those of the output, whatever diagnostics they state. -/
theorem map_text_of_parseOutput {output : String} {lines : List OutputLine}
    (h : parseOutput grammars program output = .ok lines) :
    lines.map (·.text) = Text.lines output := by
  have hread := Except.mapM_eq_ok_iff.mp h
  -- A line keeps its text, whether or not a diagnostic was found in it.
  have htexts : (Text.lines output).map id = lines.map (·.text) := by
    refine map_eq_map_of_forall₂ hread fun text line hline => ?_
    obtain ⟨message, -, hline⟩ := Except.bind_eq_ok_iff.mp hline
    obtain rfl := Except.ok.inj hline
    rfl
  rw [← htexts, List.map_id]

/-- Outputs that keep apart are read one after the other, up to the first that cannot be read. -/
theorem parseOutput_join {outputs : List String} (h : Text.KeepApart outputs) :
    parseOutput grammars program (String.join outputs) =
      (outputs.mapM (parseOutput grammars program)).map List.flatten := by
  rw [parseOutput, (Text.lines_join_iff outputs).mpr h, mapM_flatMap]
  rfl

/-- Outputs that can each be read are read one after the other only if they keep apart: the lines
that were read tell which lines there were. -/
theorem keepApart_of_parseOutput {outputs : List String} {parsed : List (List OutputLine)}
    (hparsed : outputs.mapM (parseOutput grammars program) = .ok parsed)
    (hjoin : parseOutput grammars program (String.join outputs) = .ok parsed.flatten) :
    Text.KeepApart outputs := by
  -- Each output was read from its own lines, and all of them from those of the joined output.
  have hown : outputs.map Text.lines = parsed.map (List.map (·.text)) :=
    map_eq_map_of_forall₂ (Except.mapM_eq_ok_iff.mp hparsed) fun output lines hlines =>
      (map_text_of_parseOutput hlines).symm
  refine (Text.lines_join_iff outputs).mp ?_
  calc Text.lines (String.join outputs)
      = parsed.flatten.map (·.text) := (map_text_of_parseOutput hjoin).symm
    _ = (parsed.map (List.map (·.text))).flatten := List.map_flatten
    _ = outputs.flatMap Text.lines := by rw [← hown, List.flatMap_def]

end Grammar

/-! ### Reading the output of a command -/

namespace Machine

variable {σ : Type}

/-- The output of a command that is run to its end is what its processes wrote. If the lines of
these outputs keep apart, it is read as they are, one after the other. If each of them can be read
and their lines do not keep apart, it is not. -/
theorem parsed_output_exact (m : Machine σ) (env : Environment) (call : RunCall) (s : σ)
    (raw : RawOutput) (h : (m.run env call s).1.result = .ok raw) (grammars : List Grammar)
    (program : String) :
    let outputs := (m.run env call s).1.outputs
    let read := Grammar.parseOutput grammars program
    raw.output = String.join outputs ∧
    (Text.KeepApart outputs → read raw.output = (outputs.mapM read).map List.flatten) ∧
    ∀ parsed, outputs.mapM read = .ok parsed →
      (read raw.output = .ok parsed.flatten ↔ Text.KeepApart outputs) := by
  intro outputs read
  have houtput : raw.output = String.join outputs := output_of_run h
  have hjoin (happart : Text.KeepApart outputs) :
      read raw.output = (outputs.mapM read).map List.flatten := by
    rw [houtput]
    exact Grammar.parseOutput_join happart
  refine ⟨houtput, hjoin, fun parsed hparsed => ⟨fun hread => ?_, fun happart => ?_⟩⟩
  · rw [houtput] at hread
    exact Grammar.keepApart_of_parseOutput hparsed hread
  · rw [hjoin happart, hparsed]
    rfl

end Machine

namespace Sample

/-- A machine on which every process ends as its last argument says. -/
def endingBy (ending : String → Ending) : Machine (FileTree × Unit) :=
  { machine with spawn inv s := (ending (inv.argv.getLastD ""), s) }

/-- A command that is invoked for each of two files. -/
def onEach : RunCall :=
  { command := "/x", options := [], workDir := ⟨.root, []⟩, files := ["x", "y"], timeout := none
    singleFile := true }

/-- That command on such a machine. -/
def endingOnEach (ending : String → Ending) : RunReport :=
  ((endingBy ending).run environment onEach (tree, ())).1

/-- A file and a message with a colon between them. -/
def fileAndMessage : Grammar :=
  ⟨"%f: %m", [.placeholder .file, .literal [':', ' '], .placeholder .message]⟩

/-- A process that complains about its file and ends with some text. -/
def complaining (close : String) (file : String) : Ending :=
  .exited 1 (Text.utf8 (file ++ ": bad" ++ close))

end Sample

namespace Machine

/-- Each of two processes closes its line, and there is a diagnostic for each. -/
theorem parsed_output_exact_closed_lines :
    let r := Sample.endingOnEach (Sample.complaining "\n")
    r.result = .ok ⟨123, "x: bad\ny: bad\n"⟩ ∧ Text.KeepApart r.outputs ∧
      Grammar.parseOutput [Sample.fileAndMessage] "a" "x: bad\ny: bad\n" =
        .ok [⟨"x: bad", some ⟨"a", some "x", 0, 0, "bad"⟩⟩,
          ⟨"y: bad", some ⟨"a", some "y", 0, 0, "bad"⟩⟩] := by
  intro r
  have hresult : (Sample.endingOnEach (Sample.complaining "\n")).result =
      .ok ⟨123, "x: bad\ny: bad\n"⟩ := by cbv
  have houtputs : (Sample.endingOnEach (Sample.complaining "\n")).outputs =
      ["x: bad\n", "y: bad\n"] := by cbv
  have happart : Text.KeepApart r.outputs := by
    rw [houtputs, ← Text.lines_join_iff]
    decide
  have hparsed : r.outputs.mapM (Grammar.parseOutput [Sample.fileAndMessage] "a") =
      .ok [[⟨"x: bad", some ⟨"a", some "x", 0, 0, "bad"⟩⟩],
        [⟨"y: bad", some ⟨"a", some "y", 0, 0, "bad"⟩⟩]] := by
    rw [houtputs]
    decide
  obtain ⟨-, -, hexact⟩ := parsed_output_exact (Sample.endingBy (Sample.complaining "\n"))
    Sample.environment Sample.onEach (Sample.tree, ()) _ hresult [Sample.fileAndMessage] "a"
  exact ⟨hresult, happart, (hexact _ hparsed).mpr happart⟩

/-- Each of two processes leaves its line open, and instead of a diagnostic for each there is one
for both. -/
theorem parsed_output_runs_on :
    let r := Sample.endingOnEach (Sample.complaining "")
    let read := Grammar.parseOutput [Sample.fileAndMessage] "a"
    r.result = .ok ⟨123, "x: bady: bad"⟩ ∧
      (r.outputs.mapM read).map List.flatten =
        .ok [⟨"x: bad", some ⟨"a", some "x", 0, 0, "bad"⟩⟩,
          ⟨"y: bad", some ⟨"a", some "y", 0, 0, "bad"⟩⟩] ∧
      read "x: bady: bad" =
        .ok [⟨"x: bady: bad", some ⟨"a", some "x", 0, 0, "bady: bad"⟩⟩] := by
  intro r read
  have hresult : (Sample.endingOnEach (Sample.complaining "")).result =
      .ok ⟨123, "x: bady: bad"⟩ := by cbv
  have houtputs : (Sample.endingOnEach (Sample.complaining "")).outputs =
      ["x: bad", "y: bad"] := by cbv
  refine ⟨hresult, ?_, by decide⟩
  rw [houtputs]
  decide

end Machine

end LinterSuite
