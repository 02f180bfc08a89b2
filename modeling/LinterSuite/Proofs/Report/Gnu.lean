import LinterSuite.Proofs.Grammar.Cut
import LinterSuite.Proofs.Report.Lines
import LinterSuite.Proofs.Text.Digits
import Mathlib.Data.Bool.AllAny

/-!
# Reports in the style of compilers are read back

A diagnostic that was read from a line and names a file is written on one line again, in a form that
a grammar of its own describes. The program, the file and the numbers hold no colon, so the colons
tell them apart, and the line is read as the diagnostic that it was written for.

## Main definitions

* `Text.IsField`: the texts that a program or a file may have in such a line
* `Message.IsPlaced`: the diagnostics that such a line can state
* `Grammar.gnu`: the grammar of such lines
* `Message.captures`: what that grammar captures from the line of a diagnostic

## Main results

* `Grammar.isPlaced_of_parseOutput`: diagnostics that were read, and name a file, are of that kind
* `Message.captures?_gnuLine`: the line of a diagnostic is cut in one way only
* `Format.gnu_report_read_back`: the report of an outcome is read as its diagnostics
-/

namespace LinterSuite

/-- A text without colons, control characters and line breaks, and not empty. -/
structure Text.IsField (s : String) : Prop where
  ne_empty : s ≠ ""
  plain : ∀ c ∈ s.toList, c ≠ ':' ∧ 0x1F < c.toNat ∧ isLineBreak c = false

/-- A diagnostic at a place in a file, with a message of one line. -/
structure Message.IsPlaced (m : Message) : Prop where
  program : Text.IsField m.program
  file : ∃ path, m.file = some path ∧ Text.IsField path
  line_nonneg : 0 ≤ m.line
  column_nonneg : 0 ≤ m.column
  short : m.HasShortNumbers
  text : ∀ c ∈ m.text.toList, Text.isLineBreak c = false

/-! ### Diagnostics that were read -/

theorem Text.IsField.describes {s : String} (h : IsField s) {p : Placeholder}
    (hp : p = .file ∨ p = .program) : p.Describes s.toList := by
  have hplain : s.toList ≠ [] ∧ ∀ c ∈ s.toList, c ≠ ':' ∧ 0x1F < c.toNat :=
    ⟨by simpa using h.ne_empty, fun c hc => ⟨(h.plain c hc).1, (h.plain c hc).2.1⟩⟩
  rcases hp with rfl | rfl <;> exact hplain

namespace Captures

variable {tokens : List Token} {line : List Char} {found : Captures}

theorem mem_of_lookup {p : Placeholder} {text : List Char} (h : found.lookup p = some text) :
    (p, text) ∈ found := by
  obtain ⟨before, after, rfl, -⟩ := List.lookup_eq_some_iff.mp h
  simp

/-- A number that was read is not too long to be read again. -/
theorem length_toDigits_of_number {p : Placeholder} {n : Nat} (h : found.number p = .ok n) :
    (Nat.toDigits 10 n).length ≤ Text.numeralLimit := by
  unfold number at h
  split at h
  · obtain rfl := Except.ok.inj h
    decide
  · next digits _ =>
    split_ifs at h with hlong
    obtain rfl := Except.ok.inj h
    calc
      (Nat.toDigits 10 (Text.decimalNumber digits)).length ≤ max 1 digits.length :=
        Text.length_toDigits_decimalNumber_le digits
      _ ≤ Text.numeralLimit := max_le (by decide) (Nat.not_lt.mp hlong)

variable (hcuts : Token.Cuts tokens line found) (hline : ∀ c ∈ line, Text.isLineBreak c = false)

include hcuts hline

/-- No field of a line holds a line break. -/
theorem not_isLineBreak_of_text? {p : Placeholder} {s : String} (h : found.text? p = some s) :
    ∀ c ∈ s.toList, Text.isLineBreak c = false := by
  obtain ⟨text, htext, rfl⟩ := Option.map_eq_some_iff.mp h
  obtain ⟨-, hpart⟩ := hcuts.mem_infix (mem_of_lookup htext)
  rw [String.toList_ofList]
  exact fun c hc => hline c (hpart.subset hc)

theorem isField_of_text? {p : Placeholder} (hp : p = .file ∨ p = .program) {s : String}
    (h : found.text? p = some s) : Text.IsField s := by
  have hbreaks := not_isLineBreak_of_text? hcuts hline h
  obtain ⟨text, htext, rfl⟩ := Option.map_eq_some_iff.mp h
  obtain ⟨hne, hplain⟩ : text ≠ [] ∧ ∀ c ∈ text, c ≠ ':' ∧ 0x1F < c.toNat := by
    have hdescribes := (hcuts.mem_infix (mem_of_lookup htext)).1
    rcases hp with rfl | rfl <;> exact hdescribes
  refine ⟨by simpa using hne, fun c hc => ?_⟩
  have hc' : c ∈ text := by simpa using hc
  exact ⟨(hplain c hc').1, (hplain c hc').2, hbreaks c hc⟩

/-- What captures from one line state is placed if it names a file. -/
theorem isPlaced_message {name : String} {m : Message} (hname : Text.IsField name)
    (h : found.message name = .ok m) (hfile : m.file ≠ none) : m.IsPlaced := by
  obtain ⟨row, hrow, h⟩ := Except.bind_eq_ok_iff.mp h
  obtain ⟨column, hcolumn, h⟩ := Except.bind_eq_ok_iff.mp h
  obtain rfl := Except.ok.inj h
  obtain ⟨path, hpath⟩ := Option.ne_none_iff_exists'.mp hfile
  constructor
  case program =>
    cases hprogram : found.text? .program with
    | none => exact hname
    | some program => exact isField_of_text? hcuts hline (.inr rfl) hprogram
  case file => exact ⟨path, hpath, isField_of_text? hcuts hline (.inl rfl) hpath⟩
  case line_nonneg => exact Int.natCast_nonneg row
  case column_nonneg => exact Int.natCast_nonneg column
  case short => exact ⟨length_toDigits_of_number hrow, length_toDigits_of_number hcolumn⟩
  case text =>
    cases htext : found.text? .message with
    | none => exact List.forall_mem_nil _
    | some text => exact not_isLineBreak_of_text? hcuts hline htext

end Captures

namespace Grammar

/-- A diagnostic of a line is what some captures from the line state. -/
theorem exists_cuts_of_parseLine {grammars : List Grammar} {name line : String} {m : Message}
    (h : parseLine grammars name line = .ok (some m)) :
    ∃ g ∈ grammars, ∃ found, Token.Cuts g.tokens line.toList found ∧
      found.message name = .ok m := by
  induction grammars with
  | nil => exact nomatch h
  | cons g grammars ih =>
    obtain ⟨first, hfirst, h⟩ := Except.bind_eq_ok_iff.mp h
    cases first with
    | none =>
      obtain ⟨g', hg', hfound⟩ := ih h
      exact ⟨g', List.mem_cons_of_mem g hg', hfound⟩
    | some m' =>
      obtain rfl := Option.some.inj (Except.ok.inj h)
      unfold message? at hfirst
      split at hfirst
      · exact nomatch hfirst
      · next found hfound =>
        obtain ⟨m, hm, hsome⟩ := Except.map_eq_ok_iff.mp hfirst
        obtain rfl := Option.some.inj hsome
        exact ⟨g, List.mem_cons_self, found, Token.captures?_sound hfound, hm⟩

/-- Diagnostics that were read on behalf of a well-named program are placed if they name a file. -/
theorem isPlaced_of_parseOutput {grammars : List Grammar} {name output : String}
    {lines : List OutputLine} (hname : Text.IsField name)
    (h : parseOutput grammars name output = .ok lines) {m : Message}
    (hm : m ∈ OutputLine.messages lines) (hfile : m.file ≠ none) : m.IsPlaced := by
  obtain ⟨l, hl, hmessage⟩ := List.mem_filterMap.mp hm
  obtain ⟨line, hline, hparse⟩ := Except.exists_of_mem_mapM h hl
  obtain ⟨found?, hfound?, hl⟩ := Except.bind_eq_ok_iff.mp hparse
  obtain rfl := Except.ok.inj hl
  obtain rfl : found? = some m := hmessage
  obtain ⟨g, -, found, hcuts, hfound⟩ := exists_cuts_of_parseLine hfound?
  exact found.isPlaced_message hcuts (Text.not_isLineBreak_of_mem_lines hline) hname hfound hfile

end Grammar

/-! ### One way to cut a line -/

theorem Placeholder.not_mem_of_describes {p : Placeholder} (hp : p ≠ .message) {text : List Char}
    (h : p.Describes text) : ':' ∉ text := by
  cases p with
  | file | program => exact fun hcolon => (h.2 _ hcolon).1 rfl
  | line | column => exact fun hcolon => absurd (h.2 _ hcolon) (by decide)
  | message => exact absurd rfl hp

namespace Token.Cuts

variable {tokens : List Token} {found : Captures}

theorem message_inv {line : List Char} (h : Cuts [.placeholder .message] line found) :
    found = [(.message, line)] := by
  cases h with
  | placeholder _ rest =>
    cases rest
    simp

/-- A field that cannot hold a colon ends at the first one. -/
theorem field_inv {p : Placeholder} (hp : p ≠ .message) (literal : List Char)
    {text rest : List Char} (htext : p.Describes text)
    (h : Cuts (.placeholder p :: .literal (':' :: literal) :: tokens)
      (text ++ ':' :: (literal ++ rest)) found) :
    ∃ others, found = (p, text) :: others ∧ Cuts tokens rest others := by
  generalize hwhole : text ++ ':' :: (literal ++ rest) = whole at h
  cases h with
  | @placeholder _ _ _ _ text' piece behind =>
    cases behind with
    | @literal _ rest' others _ hrest =>
      -- Neither part holds a colon, so both end at the first one.
      obtain ⟨rfl, hbehind⟩ := append_cons_inj (Placeholder.not_mem_of_describes hp htext)
        (Placeholder.not_mem_of_describes hp piece) hwhole
      obtain rfl := List.append_cancel_left hbehind
      exact ⟨_, rfl, hrest⟩

end Token.Cuts

/-- The grammar of diagnostics in the style of compilers. -/
def Grammar.gnu : Grammar where
  source := "%p:%f:%l:%c: %m"
  tokens := [.placeholder .program, .literal [':'], .placeholder .file, .literal [':'],
    .placeholder .line, .literal [':'], .placeholder .column, .literal [':', ' '],
    .placeholder .message]

theorem Grammar.compileAll_gnu : compileAll ["%p:%f:%l:%c: %m"] = .ok [gnu] := by rfl

namespace Message

/-- What the grammar of such lines captures from the line of a diagnostic. -/
def captures (m : Message) : Captures :=
  [(.program, m.program.toList), (.file, (m.file.getD "").toList),
    (.line, Nat.toDigits 10 m.line.natAbs), (.column, Nat.toDigits 10 m.column.natAbs),
    (.message, m.text.toList)]

variable {m : Message} (h : m.IsPlaced)

include h

theorem toList_gnuLine :
    m.gnuLine.toList = m.program.toList ++ ':' :: ((m.file.getD "").toList ++
      ':' :: (Nat.toDigits 10 m.line.natAbs ++ ':' :: (Nat.toDigits 10 m.column.natAbs ++
        ':' :: ' ' :: m.text.toList))) := by
  obtain ⟨path, hpath, -⟩ := h.file
  obtain ⟨row, hrow⟩ := Int.eq_ofNat_of_zero_le h.line_nonneg
  obtain ⟨column, hcolumn⟩ := Int.eq_ofNat_of_zero_le h.column_nonneg
  have hdigits : ∀ n : Nat, (n : Int).repr.toList = Nat.toDigits 10 n := fun _ => Nat.toList_repr
  rw [gnuLine, if_neg (by simp [hpath]), location, hrow, hcolumn]
  simp [hdigits, toString]

theorem gnuLine_not_isLineBreak : ∀ c ∈ m.gnuLine.toList, Text.isLineBreak c = false := by
  obtain ⟨path, hpath, hfield⟩ := h.file
  have hdigits : ∀ n, ∀ c ∈ Nat.toDigits 10 n, Text.isLineBreak c = false := by
    intro n c hc
    have hrange := Text.toNat_of_isDigit (Text.isDigit_of_mem_toDigits hc)
    simp [Text.isLineBreak]
    omega
  rw [toList_gnuLine h, hpath]
  simp only [List.forall_mem_append, List.forall_mem_cons]
  exact ⟨fun c hc => (h.program.plain c hc).2.2, rfl, fun c hc => (hfield.plain c hc).2.2, rfl,
    hdigits _, rfl, hdigits _, rfl, rfl, h.text⟩

/-- The line of a diagnostic is cut in one way only. -/
theorem captures?_gnuLine :
    Token.captures? Grammar.gnu.tokens m.gnuLine.toList = some m.captures := by
  obtain ⟨path, hpath, hfield⟩ := h.file
  have hprogram : Placeholder.program.Describes m.program.toList := h.program.describes (.inr rfl)
  have hfile : Placeholder.file.Describes (m.file.getD "").toList := by
    rw [hpath]
    exact hfield.describes (.inl rfl)
  have hnumber : ∀ n, Nat.toDigits 10 n ≠ [] ∧
      ∀ c ∈ Nat.toDigits 10 n, (Text.decimalValue? c).isSome := by
    refine fun n => ⟨Nat.toDigits_ne_nil, fun c hc => ?_⟩
    rw [Text.decimalValue?_of_isDigit (Text.isDigit_of_mem_toDigits hc)]
    rfl
  have hline : Placeholder.line.Describes (Nat.toDigits 10 m.line.natAbs) := hnumber _
  have hcolumn : Placeholder.column.Describes (Nat.toDigits 10 m.column.natAbs) := hnumber _
  have hmessage : Placeholder.message.Describes m.text.toList := fun hfeed =>
    absurd (h.text _ hfeed) (by decide)
  -- There is a cut, so the search finds one.
  have hcuts : Token.Cuts Grammar.gnu.tokens m.gnuLine.toList m.captures := by
    rw [toList_gnuLine h, ← List.append_nil m.text.toList]
    exact .placeholder hprogram <| .literal [':'] <| .placeholder hfile <| .literal [':'] <|
      .placeholder hline <| .literal [':'] <| .placeholder hcolumn <| .literal [':', ' '] <|
      .placeholder hmessage .nil
  obtain ⟨found, hfound, -⟩ := Token.captures?_complete hcuts
  rw [hfound]
  have hcut := Token.captures?_sound hfound
  rw [toList_gnuLine h] at hcut
  -- The colons leave no choice.
  obtain ⟨_, rfl, hafterProgram⟩ := hcut.field_inv (by decide) [] hprogram
  obtain ⟨_, rfl, hafterFile⟩ := hafterProgram.field_inv (by decide) [] hfile
  obtain ⟨_, rfl, hafterLine⟩ := hafterFile.field_inv (by decide) [] hline
  obtain ⟨_, rfl, hafterColumn⟩ := hafterLine.field_inv (by decide) [' '] hcolumn
  obtain rfl := hafterColumn.message_inv
  rfl

theorem message_captures (program : String) : m.captures.message program = .ok m := by
  obtain ⟨path, hpath, -⟩ := h.file
  have hline : m.captures.number .line = .ok m.line.natAbs := by
    change (if Text.numeralLimit < (Nat.toDigits 10 m.line.natAbs).length then _ else _) = _
    rw [if_neg (Nat.not_lt.mpr h.short.line), Text.decimalNumber_toDigits]
  have hcolumn : m.captures.number .column = .ok m.column.natAbs := by
    change (if Text.numeralLimit < (Nat.toDigits 10 m.column.natAbs).length then _ else _) = _
    rw [if_neg (Nat.not_lt.mpr h.short.column), Text.decimalNumber_toDigits]
  have hprogram : m.captures.text? .program = some m.program := by
    change some (String.ofList m.program.toList) = _
    rw [String.ofList_toList]
  have hfile : m.captures.text? .file = m.file := by
    change some (String.ofList (m.file.getD "").toList) = _
    rw [String.ofList_toList, hpath, Option.getD_some]
  have htext : m.captures.text? .message = some m.text := by
    change some (String.ofList m.text.toList) = _
    rw [String.ofList_toList]
  have hrow : (m.line.natAbs : Int) = m.line := Int.natAbs_of_nonneg h.line_nonneg
  have hcol : (m.column.natAbs : Int) = m.column := Int.natAbs_of_nonneg h.column_nonneg
  rw [Captures.message, hline, hcolumn, hprogram, hfile, htext]
  simp only [bind, Except.bind, pure, Except.pure, Option.getD_some, hrow, hcol]

theorem parseLine_gnuLine (program : String) :
    Grammar.parseLine [.gnu] program m.gnuLine = .ok (some m) := by
  rw [Grammar.parseLine, Grammar.message?, captures?_gnuLine h]
  simp only [message_captures h, Except.map]
  rfl

end Message

/-- The report of placed diagnostics is read as a line for each. -/
theorem Grammar.parseOutput_gnuLines {ms : List Message} (h : ∀ m ∈ ms, m.IsPlaced)
    (program : String) :
    parseOutput [gnu] program (closedLines (ms.map Message.gnuLine)) =
      .ok (ms.map fun m => ⟨m.gnuLine, some m⟩) := by
  -- No message breaks a line, so each diagnostic is one line.
  have hlines : Text.lines (closedLines (ms.map Message.gnuLine)) = ms.map Message.gnuLine := by
    refine Text.lines_closedLines fun line hline => ?_
    obtain ⟨m, hm, rfl⟩ := List.mem_map.mp hline
    exact Message.gnuLine_not_isLineBreak (h m hm)
  rw [parseOutput, hlines, Except.mapM_eq_ok_iff, List.forall₂_map_left_iff,
    List.forall₂_map_right_iff, List.forall₂_same]
  intro m hm
  rw [Message.parseLine_gnuLine (h m hm)]
  rfl

/-- The report of an outcome whose diagnostics were read from some output, and all name a file, is
read by the grammar of such reports as the diagnostics of the outcome, with no line left over. -/
theorem Format.gnu_report_read_back {grammars : List Grammar} {name output : String} {o : Outcome}
    (hname : Text.IsField name) (hparse : Grammar.parseOutput grammars name output = .ok o.lines)
    (hfiles : ∀ m ∈ o.messages, m.file ≠ none) (hstatus : o.status ≠ .error) (color : Bool)
    (program : String) :
    ∃ gnu reread, Grammar.compileAll ["%p:%f:%l:%c: %m"] = .ok gnu ∧
      Grammar.parseOutput gnu program (Format.gnu.body color o) = .ok reread ∧
      OutputLine.unstructured reread = [] ∧ OutputLine.messages reread = o.messages := by
  have hplaced : ∀ m ∈ o.messages, m.IsPlaced := fun m hm =>
    Grammar.isPlaced_of_parseOutput hname hparse hm (hfiles m hm)
  have hbody : Format.gnu.body color o = closedLines (o.messages.map Message.gnuLine) := by
    rw [body, Outcome.reported, if_neg hstatus]
  refine ⟨[.gnu], o.messages.map fun m => ⟨m.gnuLine, some m⟩, Grammar.compileAll_gnu, ?_, ?_, ?_⟩
  · rw [hbody, Grammar.parseOutput_gnuLines hplaced]
  · simp [OutputLine.unstructured, OutputLine.isStructured]
  · simp [OutputLine.messages]

/-- Numbers with leading zeros and with digits of another script, a message that looks like a place,
and a line that states nothing. -/
theorem Format.gnu_report_read_back_normalized :
    Text.IsField "cc" ∧
    ∃ grammars lines, Grammar.compileAll ["%f(%l,%c): %m"] = .ok grammars ∧
      Grammar.parseOutput grammars "cc" "a.c(007,٣): b:1:2: x\n2 notes\nb c(12,1): " = .ok lines ∧
      let o := { Outcome.idle "cc" .failed [] with lines }
      Format.gnu.body false o = "cc:a.c:7:3: b:1:2: x\ncc:b c:12:1: \n" ∧
      ∃ gnu reread, Grammar.compileAll ["%p:%f:%l:%c: %m"] = .ok gnu ∧
        Grammar.parseOutput gnu "tool" (Format.gnu.body false o) = .ok reread ∧
        OutputLine.unstructured reread = [] ∧ OutputLine.messages reread = o.messages := by
  let lines : List OutputLine := [
    ⟨"a.c(007,٣): b:1:2: x", some ⟨"cc", some "a.c", 7, 3, "b:1:2: x"⟩⟩, ⟨"2 notes", none⟩,
    ⟨"b c(12,1): ", some ⟨"cc", some "b c", 12, 1, ""⟩⟩]
  let given : Grammar := ⟨"%f(%l,%c): %m", [.placeholder .file, .literal ['('], .placeholder .line,
    .literal [','], .placeholder .column, .literal [')', ':', ' '], .placeholder .message]⟩
  have hname : Text.IsField "cc" := ⟨by decide, List.all_iff_forall_prop.mp (by decide)⟩
  have hparse : Grammar.parseOutput [given] "cc"
      "a.c(007,٣): b:1:2: x\n2 notes\nb c(12,1): " = .ok lines := by rfl
  refine ⟨hname, [given], lines, by rfl, hparse, by rfl, ?_⟩
  exact gnu_report_read_back hname hparse (by decide) (by decide) false "tool"

end LinterSuite
