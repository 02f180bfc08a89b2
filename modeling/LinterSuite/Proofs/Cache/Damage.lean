import LinterSuite.Proofs.Cache.Replies
import LinterSuite.Proofs.Cache.Verdict
import LinterSuite.Proofs.Json.Faults
import LinterSuite.Proofs.Json.Torn

/-!
# Damaged entries

Whatever bytes are in the entry file of a linter, what is read of them is a record of that linter or
nothing, unless one of three faults can be found in them: they are no text, or the text has too long
a number, or values that are nested too deeply. These end the run. They cannot come from a save that
was interrupted: a beginning of what is written is as good as no entry.

## Main definitions

* `EntryError.Blames`: bytes in which a fault can be found

## Main results

* `CacheStore.readEntry_eq_error_iff`: reading bytes fails exactly for a fault in them
* `CacheStore.readEntry_of_long`, `CacheStore.readEntry_of_deep`: two kinds of faults
* `CacheStore.load_damaged_exact`: what is read of an entry with any bytes
* `CacheStore.damaged_entry_not_missed`: bytes of which neither a record nor nothing is read
* `CacheStore.load_beginning_exact`: what is read of a beginning of the bytes that are saved
-/

namespace LinterSuite

/-- Bytes in which a fault can be found. -/
def EntryError.Blames (bytes : List UInt8) : EntryError → Prop
  | .notText => ¬ ∃ s, Text.utf8 s = bytes
  | .numeral e => ∃ s, Text.utf8 s = bytes ∧ Json.read s = .error (.numeral e)
  | .tooDeep at_ => ∃ s, Text.utf8 s = bytes ∧ Json.read s = .error (.tooDeep at_)
  | .path _ => False

namespace CacheStore

variable {digest : Digest} {t t' : FileTree} {dir : Path} {name : String} {bytes : List UInt8}
  {r : RunRecord}

/-! ### Any bytes -/

/-- An entry whose bytes can be got is read from them. -/
theorem load_of_read (h : t.read (entryPath digest dir name) = .ok bytes) :
    load digest t name (.directory dir) = readEntry name bytes := by
  obtain ⟨n, hstat, hcontent⟩ := Except.bind_eq_ok_iff.mp h
  rw [load_directory, hstat]
  cases n with
  | file data =>
    obtain rfl := Except.ok.inj hcontent
    rfl
  | dir => cases hcontent
  | link => cases hcontent

/-- Reading bytes fails exactly for a fault that can be found in them. -/
theorem readEntry_eq_error_iff {e : EntryError} :
    readEntry name bytes = .error e ↔ e.Blames bytes := by
  unfold readEntry
  cases htext : Text.ofUtf8? bytes with
  | none =>
    have hnone : ∀ s, Text.utf8 s ≠ bytes := by
      intro s hs
      rw [← Text.ofUtf8?_eq_some_iff, htext] at hs
      cases hs
    cases e <;> simp [EntryError.Blames, hnone]
  | some s =>
    obtain rfl := Text.ofUtf8?_eq_some_iff.mp htext
    -- The text is the only one with these bytes.
    have honly : ∀ s', Text.utf8 s' = Text.utf8 s ↔ s' = s := fun s' => Text.utf8_injective.eq_iff
    rcases hread : Json.read s with (_ | _ | _) | v <;>
      cases e <;> simp [EntryError.Blames, honly, hread, eq_comm]

/-- Too many digits are such a fault. -/
theorem readEntry_of_long {digits : List Char} (hdigits : ∀ c ∈ digits, c.isDigit)
    (hzero : digits.head? ≠ some '0') (hlong : Text.numeralLimit < digits.length) (name : String) :
    readEntry name (Text.utf8 (String.ofList digits)) = .error (.numeral ⟨digits.length⟩) :=
  readEntry_eq_error_iff.mpr ⟨_, rfl, Json.read_of_long hdigits hzero hlong⟩

/-- So are more brackets than may be nested, whatever stands behind them. -/
theorem readEntry_of_deep (rest : List Char) (name : String) :
    readEntry name
        (Text.utf8 (String.ofList (List.replicate (Json.depthLimit + 1) '[' ++ rest))) =
      .error (.tooDeep .array) :=
  readEntry_eq_error_iff.mpr ⟨_, rfl, Json.read_of_deep rest⟩

/-- A verdict fails for the entry of a linter exactly if that cannot be read. -/
theorem verdict_eq_error_entry_iff {store : CacheStore} {files : List Path} {checkHash : Bool}
    {fingerprint : String} {e : EntryError} :
    verdict digest t store name files checkHash fingerprint = .error (.entry e) ↔
      store.load digest t name = .error e := by
  unfold verdict
  rw [Except.bind_eq_error_iff, Except.mapError_eq_error_iff]
  constructor
  · rintro (⟨e', hload, heq⟩ | ⟨record, -, hverdict⟩)
    · obtain rfl := CacheError.entry.inj heq
      exact hload
    · obtain ⟨_, -, heq⟩ := Except.mapError_eq_error_iff.mp hverdict
      cases heq
  · intro hload
    exact .inl ⟨e, hload, rfl⟩

/-- What is read of an entry with any bytes. It is a record of that linter or nothing, unless one of
the faults can be found in the bytes. This is not so if they are those of a text without a run of
too many digits in which no more brackets are opened than may be nested. -/
theorem load_damaged_exact (hread : t.read (entryPath digest dir name) = .ok bytes) :
    (∀ e, load digest t name (.directory dir) = .error e ↔ e.Blames bytes) ∧
    (∀ found, load digest t name (.directory dir) = .ok found →
      found = none ∨ ∃ r, found = some r ∧ r.name = name) ∧
    (∀ e files checkHash fingerprint,
      verdict digest t (.directory dir) name files checkHash fingerprint = .error (.entry e) ↔
        e.Blames bytes) ∧
    ∀ s, Text.utf8 s = bytes → (∀ n, Json.HasRun n s.toList → n ≤ Text.numeralLimit) →
      Json.openings s.toList ≤ Json.depthLimit →
      ∃ found, load digest t name (.directory dir) = .ok found := by
  have hload := load_of_read hread
  refine ⟨fun e => ?_, ?_, fun e files checkHash fingerprint => ?_, ?_⟩
  · rw [hload]
    exact readEntry_eq_error_iff
  · rintro (_ | r) hfound
    · exact .inl rfl
    · exact .inr ⟨r, rfl, name_of_load hfound⟩
  · rw [verdict_eq_error_entry_iff, hload]
    exact readEntry_eq_error_iff
  · rintro s rfl hruns hdepth
    rw [hload]
    simp only [readEntry, Text.ofUtf8?_utf8]
    rcases Json.read_of_modest hruns hdepth with hbad | ⟨v, hv⟩
    · rw [hbad]
      exact ⟨none, rfl⟩
    · rw [hv]
      exact ⟨_, rfl⟩

/-- An entry with nothing but an opening brace. -/
theorem load_damaged_exact_brace :
    ∃ found, load (fun _ => "") (Sample.treeWithEntry [123]) "a"
      (.directory ⟨.relative, ["c"]⟩) = .ok found := by
  have hread : (Sample.treeWithEntry [123]).read
      (entryPath (fun _ => "") ⟨.relative, ["c"]⟩ "a") = .ok [123] := by cbv
  obtain ⟨-, -, -, hmodest⟩ := load_damaged_exact hread
  refine hmodest "\x7b" (by decide) ?_ (by decide)
  rintro n ⟨digits, hinfix, rfl, -⟩
  exact Nat.le_trans hinfix.length_le (by decide)

/-- Of a byte that is no text neither a record nor nothing is read. -/
theorem damaged_entry_not_missed :
    let t := Sample.treeWithEntry [255]
    let store := directory ⟨.relative, ["c"]⟩
    t.read (entryPath (fun _ => "") ⟨.relative, ["c"]⟩ "a") = .ok [255] ∧
      load (fun _ => "") t "a" store = .error .notText ∧
      verdict (fun _ => "") t store "a" [] false "" = .error (.entry .notText) := by
  refine ⟨?_, ?_, ?_⟩
  · cbv
  · cbv
  · cbv

/-! ### Beginnings of an entry -/

/-- Every value of a record is written in ASCII and, cut short, is read up to its end at most. -/
theorem tears_members (hshort : r.IsShort) :
    ∀ m ∈ r.members, Json.Tears m.2.toList ∧ Text.IsAscii m.2.toList := by
  simp only [RunRecord.members, List.forall_mem_cons]
  exact ⟨⟨Json.tears_string _, Json.isAscii_string _⟩,
    ⟨Json.tears_string _, Json.isAscii_string _⟩, ⟨Json.tears_string _, Json.isAscii_string _⟩,
    ⟨Json.tears_integer hshort, Json.isAscii_integer _⟩,
    ⟨Json.tears_stringOrNull _, Json.isAscii_stringOrNull _⟩,
    ⟨Json.tears_boolean _, Json.isAscii_boolean _⟩, List.forall_mem_nil _⟩

/-- The bytes of a record that were cut short are as good as none. -/
theorem readEntry_of_prefix (hshort : r.IsShort) (hbegins : bytes <+: Text.utf8 r.text)
    (hcut : bytes ≠ Text.utf8 r.text) (name : String) : readEntry name bytes = .ok none := by
  obtain ⟨s, rfl, hread⟩ := Json.exists_of_prefix_block (RunRecord.writesMember_members hshort)
    (tears_members hshort) r.members_ne_nil hbegins hcut
  simp only [readEntry, Text.ofUtf8?_utf8, hread]

/-- What is written in an entry that was free is read from it. -/
theorem read_write_entry {made : FileTree}
    (hfree : Node.IsFree (made.child? dir (entryName digest name)))
    (hwrite : made.write (entryPath digest dir name) bytes = .ok t') :
    t'.read (entryPath digest dir name) = .ok bytes := by
  have hdot := entryName_ne_dot digest name
  have hdots := entryName_ne_dots digest name
  obtain ⟨data, hentry, rfl⟩ := FileTree.child?_write_self hdot hdots hfree hwrite
  have hstat := FileTree.stat_of_child?_file hdot hdots hentry
  rw [entryPath_eq, FileTree.read, hstat]
  rfl

/-- A save writes the bytes of the record into its entry. From a beginning of them nothing is read,
or the record if nothing is missing. -/
theorem load_beginning_exact (hshort : r.IsShort) (digest : Digest) (dir : Path) :
    (∀ t made t', t.makeDirs dir = (made, .ok ()) →
      Node.IsFree (made.child? dir (entryName digest r.name)) →
      made.write (entryPath digest dir r.name) (Text.utf8 r.text) = .ok t' →
      (directory dir).save digest t r = (directory dir, t') ∧
        t'.read (entryPath digest dir r.name) = .ok (Text.utf8 r.text)) ∧
    ∀ t bytes, t.read (entryPath digest dir r.name) = .ok bytes → bytes <+: Text.utf8 r.text →
      load digest t r.name (.directory dir) =
        .ok (if bytes = Text.utf8 r.text then some r else none) := by
  refine ⟨fun t made t' hmake hfree hwrite => ⟨?_, read_write_entry hfree hwrite⟩,
    fun t bytes hread hbegins => ?_⟩
  · rw [save, writeEntry, hmake]
    simp only [hwrite, Except.toOption, Option.getD_some]
  · rw [load_of_read hread]
    split_ifs with hwhole
    · rw [hwhole, readEntry_text hshort, if_pos rfl]
    · exact readEntry_of_prefix hshort hbegins hwhole r.name

/-- A record whose texts have braces, quotes and a character beyond the basic plane, with its last
byte and without. -/
theorem load_beginning_exact_braces :
    let r : RunRecord := ⟨"\"\x7d😀", "\\", "\x7b", -10, some "", true⟩
    let load := fun bytes => load (fun _ => "") (Sample.treeWithEntry bytes) r.name
      (.directory ⟨.relative, ["c"]⟩)
    r.IsShort ∧ load (Text.utf8 r.text) = .ok (some r) ∧
      load (Text.utf8 r.text).dropLast = .ok none := by
  intro r load
  have hshort : r.IsShort := by unfold RunRecord.IsShort; decide
  have hread : ∀ bytes, (Sample.treeWithEntry bytes).read
      (entryPath (fun _ => "") ⟨.relative, ["c"]⟩ r.name) = .ok bytes := by
    intro bytes
    cbv
  have hcut : (Text.utf8 r.text).dropLast ≠ Text.utf8 r.text := by
    intro h
    have hlength := congrArg List.length h
    rw [List.length_dropLast] at hlength
    have hempty : Text.utf8 r.text = [] := List.length_eq_zero_iff.mp (by omega)
    rw [Text.utf8, r.text_eq_block, Json.toList_block r.members_ne_nil] at hempty
    simp [Json.Layout.object] at hempty
  obtain ⟨-, hload⟩ := load_beginning_exact hshort (fun _ => "") ⟨.relative, ["c"]⟩
  refine ⟨hshort, ?_, ?_⟩
  · rw [show load _ = _ from hload _ _ (hread _) List.prefix_rfl, if_pos rfl]
  · rw [show load _ = _ from hload _ _ (hread _) (List.dropLast_prefix _), if_neg hcut]

end CacheStore

end LinterSuite
