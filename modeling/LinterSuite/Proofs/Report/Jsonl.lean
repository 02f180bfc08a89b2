import LinterSuite.Proofs.Json.Blocks
import LinterSuite.Proofs.Report.Lines
import LinterSuite.Proofs.Text.Digits
import Mathlib.Data.Bool.AllAny

/-!
# Reports of JSON objects are read back

A report in which every diagnostic is a JSON object is plain ASCII, with one line for each
diagnostic, and every line is read as the fields of its diagnostic. No text that a linter writes can
break a line or end a string, since all of it is escaped.

## Main definitions

* `Text.IsPrintable`: printable ASCII characters
* `Message.fields`: the members of the object of a diagnostic
* `Outcome.Encodes`: lines that say what an outcome reports

## Main results

* `Json.isPrintable_escaped`: whatever is written in a string is written in printable ASCII
* `Message.read_jsonLine`: the object of a diagnostic is read as its fields
* `Format.jsonl_report_exact`: the lines of a report, and what they say
-/

namespace LinterSuite

/-! ### Plain text -/

/-- Printable ASCII characters. -/
def Text.IsPrintable (c : Char) : Prop := 0x20 ≤ c.toNat ∧ c.toNat ≤ 0x7E

instance (c : Char) : Decidable (Text.IsPrintable c) := inferInstanceAs (Decidable (_ ∧ _))

theorem Text.isPrintable_hexDigits (width n : Nat) : ∀ c ∈ hexDigits width n, IsPrintable c := by
  have hdigit : ∀ m ∈ List.range 16, IsPrintable (hexDigit m) := by decide
  induction width generalizing n with
  | zero => simp [hexDigits]
  | succ width ih =>
    intro c hc
    rcases List.mem_append.mp hc with hc | hc
    · exact ih (n / 16) c hc
    · obtain rfl := List.mem_singleton.mp hc
      exact hdigit _ (List.mem_range.mpr (Nat.mod_lt _ (by decide)))

namespace Json

open Text (IsPrintable)

theorem isPrintable_unitEscape (n : Nat) : ∀ c ∈ unitEscape n, IsPrintable c := by
  have hfront : IsPrintable '\\' ∧ IsPrintable 'u' := by decide
  exact List.forall_mem_cons.mpr ⟨hfront.1,
    List.forall_mem_cons.mpr ⟨hfront.2, Text.isPrintable_hexDigits 4 n⟩⟩

/-- Whatever is written in a string is written in printable ASCII. -/
theorem isPrintable_escaped (c : Char) : ∀ d ∈ escaped c, IsPrintable d := by
  unfold escaped
  split_ifs with hself hnewline hreturn htab hback hfeed hplain hbasic
  · -- The quote and the backslash.
    rcases hself with rfl | rfl <;> exact List.all_iff_forall_prop.mp (by decide)
  -- Control characters with a letter of their own.
  iterate 5 exact List.all_iff_forall_prop.mp (by decide)
  · exact List.forall_mem_singleton.mpr hplain
  · exact isPrintable_unitEscape _
  · exact List.forall_mem_append.mpr ⟨isPrintable_unitEscape _, isPrintable_unitEscape _⟩

theorem isPrintable_string (s : String) : ∀ c ∈ (string s).toList, IsPrintable c := by
  have hbody : ∀ c ∈ s.toList.flatMap escaped, IsPrintable c := by
    intro c hc
    obtain ⟨d, -, hc⟩ := List.mem_flatMap.mp hc
    exact isPrintable_escaped d c hc
  rw [toList_string]
  exact List.forall_mem_cons.mpr ⟨by decide, List.forall_mem_append.mpr
    ⟨hbody, List.forall_mem_singleton.mpr (by decide)⟩⟩

theorem isPrintable_stringOrNull (s : Option String) :
    ∀ c ∈ (stringOrNull s).toList, IsPrintable c := by
  cases s with
  | none => exact List.all_iff_forall_prop.mp (by decide)
  | some s => exact isPrintable_string s

theorem isPrintable_integer (n : Int) : ∀ c ∈ (toString n).toList, IsPrintable c := by
  have hdigits : ∀ m : Nat, ∀ c ∈ Nat.toDigits 10 m, IsPrintable c := by
    intro m c hc
    have hrange := Text.toNat_of_isDigit (Text.isDigit_of_mem_toDigits hc)
    exact ⟨by omega, by omega⟩
  cases n with
  | ofNat n =>
    rw [show (toString (Int.ofNat n)).toList = Nat.toDigits 10 n from Nat.toList_repr]
    exact hdigits n
  | negSucc n =>
    rw [toList_negSucc]
    exact List.forall_mem_cons.mpr ⟨by decide, hdigits (n + 1)⟩

/-- An object on one line is plain if its values are. -/
theorem isPrintable_line {ms : List (String × String)}
    (h : ∀ m ∈ ms, ∀ c ∈ m.2.toList, IsPrintable c) : ∀ c ∈ (line ms).toList, IsPrintable c := by
  have hmember : ∀ m ∈ ms, ∀ c ∈ Layout.line.member m, IsPrintable c := by
    intro m hm
    exact List.forall_mem_append.mpr ⟨List.forall_mem_nil _, List.forall_mem_append.mpr
      ⟨isPrintable_string m.1, List.forall_mem_cons.mpr ⟨by decide, h m hm⟩⟩⟩
  have hmembers : ∀ c ∈ [','].intercalate (ms.map Layout.line.member), IsPrintable c := by
    intro c hc
    rcases mem_or_mem_of_mem_intercalate hc with hcomma | ⟨member, hmem, hc⟩
    · obtain rfl := List.mem_singleton.mp hcomma
      decide
    · obtain ⟨m, hm, rfl⟩ := List.mem_map.mp hmem
      exact hmember m hm c hc
  rw [toList_line]
  exact List.forall_mem_cons.mpr ⟨by decide, List.forall_mem_append.mpr
    ⟨hmembers, List.forall_mem_singleton.mpr (by decide)⟩⟩

end Json

/-! ### Diagnostics as objects -/

namespace Message

/-- The members of the object of a diagnostic. -/
def fields (m : Message) : Table :=
  [("column", .integer m.column), ("file", (m.file.map Value.string).getD .nothing),
    ("line", .integer m.line), ("message", .string m.text), ("program", .string m.program)]

theorem isPrintable_jsonLine (m : Message) : ∀ c ∈ m.jsonLine.toList, Text.IsPrintable c := by
  refine Json.isPrintable_line ?_
  simp only [List.forall_mem_cons]
  exact ⟨Json.isPrintable_integer _, Json.isPrintable_stringOrNull _, Json.isPrintable_integer _,
    Json.isPrintable_string _, Json.isPrintable_string _, List.forall_mem_nil _⟩

theorem jsonLine_ne_empty (m : Message) : m.jsonLine ≠ "" := by
  intro hempty
  have hnil : m.jsonLine.toList = [] := by rw [hempty]; rfl
  rw [jsonLine, Json.toList_line] at hnil
  exact List.cons_ne_nil _ _ hnil

/-- The object of a diagnostic is read as its fields. -/
theorem read_jsonLine {m : Message} (h : m.HasShortNumbers) :
    Json.read m.jsonLine = .ok (.table m.fields) := by
  have hmembers : List.Forall₂ Json.WritesMember
      [("column", toString m.column), ("file", Json.stringOrNull m.file),
        ("line", toString m.line), ("message", Json.string m.text),
        ("program", Json.string m.program)] m.fields :=
    .cons ⟨rfl, Json.writes_integer h.column⟩ <| .cons ⟨rfl, Json.writes_stringOrNull _⟩ <|
      .cons ⟨rfl, Json.writes_integer h.line⟩ <| .cons ⟨rfl, Json.writes_string _⟩ <|
      .cons ⟨rfl, Json.writes_string _⟩ .nil
  have htable : Table.ofEntries m.fields = m.fields := by
    simp [fields, Table.ofEntries, Table.put, Keyed.put]
  rw [jsonLine, Json.read_line hmembers (by simp), htable]

end Message

/-! ### Whole reports -/

/-- Lines that say what an outcome reports: one for each diagnostic, with its fields, or a single
one that tells why the linter could not be run. -/
structure Outcome.Encodes (o : Outcome) (lines : List String) : Prop where
  diagnostics : o.status ≠ .error →
    List.Forall₂ (fun line m => Json.read line = .ok (.table m.fields)) lines o.messages
  failure : o.status = .error → ∃ line, lines = [line] ∧ Json.read line = .ok (.table
    [("column", .integer 0), ("file", .nothing), ("line", .integer 0),
      ("message", .string ("error: " ++
        (o.error.filter (!·.isEmpty)).getD "linter could not be run")),
      ("program", .string o.program)])

theorem Outcome.encodes_reported {o : Outcome}
    (h : o.status ≠ .error → ∀ m ∈ o.messages, m.HasShortNumbers) :
    o.Encodes (o.reported.map Message.jsonLine) where
  diagnostics hstatus := by
    rw [reported, if_neg hstatus, List.forall₂_map_left_iff, List.forall₂_same]
    exact fun m hm => Message.read_jsonLine (h hstatus m hm)
  failure hstatus := by
    have hzero : (Nat.toDigits 10 (0 : Int).natAbs).length ≤ Text.numeralLimit := by decide
    rw [reported, if_pos hstatus]
    exact ⟨_, rfl, Message.read_jsonLine ⟨hzero, hzero⟩⟩

/-- A report of JSON objects is the lines of all outcomes. -/
theorem Format.report_jsonl (color : Bool) (outcomes : List Outcome) :
    Format.jsonl.report color outcomes =
      closedLines (outcomes.map fun o => o.reported.map Message.jsonLine).flatten := by
  induction outcomes with
  | nil => rfl
  | cons o outcomes ih =>
    rw [List.map_cons, List.flatten_cons, closedLines_append, ← ih]
    simp [report, emit, header, body]

/-- A report of JSON objects is printable ASCII apart from the line feeds, each of which closes a
line that is not empty. The lines fall into one group for each outcome, which says what the outcome
reports. -/
theorem Format.jsonl_report_exact (color : Bool) (outcomes : List Outcome)
    (h : ∀ o ∈ outcomes, o.status ≠ .error → ∀ m ∈ o.messages, m.HasShortNumbers) :
    (∀ c ∈ (Format.jsonl.report color outcomes).toList, c = '\n' ∨ Text.IsPrintable c) ∧
      ∃ groups : List (List String),
        Text.pieces '\n' (Format.jsonl.report color outcomes).toList =
          groups.flatten.map String.toList ++ [[]] ∧
        (∀ line ∈ groups.flatten, line ≠ "") ∧ List.Forall₂ Outcome.Encodes outcomes groups := by
  rw [report_jsonl]
  -- A line feed in a diagnostic is escaped, so every line of the report is one of these.
  set groups := outcomes.map fun o => o.reported.map Message.jsonLine with hgroups
  have hlines : ∀ line ∈ groups.flatten, ∃ m : Message, m.jsonLine = line := by
    intro line hline
    obtain ⟨group, hgroup, hline⟩ := List.mem_flatten.mp hline
    obtain ⟨o, -, rfl⟩ := List.mem_map.mp hgroup
    obtain ⟨m, -, rfl⟩ := List.mem_map.mp hline
    exact ⟨m, rfl⟩
  have hplain : ∀ line ∈ groups.flatten, ∀ c ∈ line.toList, Text.IsPrintable c := by
    intro line hline
    obtain ⟨m, rfl⟩ := hlines line hline
    exact m.isPrintable_jsonLine
  refine ⟨mem_closedLines hplain, groups, pieces_closedLines fun line hline hfeed => ?_,
    fun line hline => ?_, ?_⟩
  · exact absurd (hplain line hline _ hfeed) (by decide)
  · obtain ⟨m, rfl⟩ := hlines line hline
    exact m.jsonLine_ne_empty
  · rw [hgroups, List.forall₂_map_right_iff, List.forall₂_same]
    exact fun o ho => Outcome.encodes_reported (h o ho)

/-- A diagnostic with quotes, line breaks and a character beyond the basic plane, in front of a
linter that could not be run. -/
theorem Format.jsonl_report_exact_escapes :
    let m : Message := { program := "a\"", file := none, line := -7, column := 0
                         text := "\\ \n \u2028 𝕏" }
    let outcomes : List Outcome := [{ Outcome.idle "a" .failed [] with lines := [⟨"", some m⟩] },
      { Outcome.idle "b" .error [] with error := some "no such file" }]
    m.HasShortNumbers ∧ ∃ first second,
      Text.pieces '\n' (Format.jsonl.report false outcomes).toList =
        [String.toList first, String.toList second, []] ∧
      Json.read first = .ok (.table m.fields) ∧
      Json.read second = .ok (.table [("column", .integer 0), ("file", .nothing),
        ("line", .integer 0), ("message", .string "error: no such file"),
        ("program", .string "b")]) := by
  intro m outcomes
  have hm : m.HasShortNumbers := ⟨by decide, by decide⟩
  have hshort : ∀ o ∈ outcomes, o.status ≠ .error → ∀ m' ∈ o.messages, m'.HasShortNumbers := by
    refine List.forall_mem_cons.mpr ⟨fun _ => List.forall_mem_singleton.mpr hm,
      List.forall_mem_singleton.mpr fun hstatus => absurd rfl hstatus⟩
  obtain ⟨-, groups, hpieces, -, hencodes⟩ := jsonl_report_exact false outcomes hshort
  obtain ⟨lines, groups, hlines, hgroups, rfl⟩ := List.forall₂_cons_left_iff.mp hencodes
  obtain ⟨lines', none, hlines', hnone, rfl⟩ := List.forall₂_cons_left_iff.mp hgroups
  obtain rfl := List.forall₂_nil_left_iff.mp hnone
  obtain ⟨first, others, hfirst, hothers, rfl⟩ :=
    List.forall₂_cons_right_iff.mp (hlines.diagnostics (by decide))
  obtain rfl := List.forall₂_nil_right_iff.mp hothers
  obtain ⟨second, rfl, hsecond⟩ := hlines'.failure rfl
  exact ⟨hm, first, second, hpieces, hfirst, hsecond⟩

end LinterSuite
