import LinterSuite.Config
import LinterSuite.Proofs.Fallible
import Mathlib.Data.List.Forall2
import Mathlib.Data.List.Nodup

/-!
# Settings written back

A configuration that was read can be written as a document again, with every setting said in its own
type and those left out that are nothing. Reading that document gives the same configuration,
however loosely the first one was written: what a reading makes of a value passes every check that
the value had to pass, and is read as itself.

## Main definitions

* `Table.given`: a section with the settings that are something
* `GlobalSettings.Valid`, `LinterSettings.Valid`: settings that no check refuses
* `GlobalSettings.dump`, `LinterSettings.dump`, `Config.dump`: settings as sections and documents

## Main results

* `GlobalSettings.ofTable_eq_ok_iff`, `LinterSettings.ofTable_eq_ok_iff`: a section setting by
  setting
* `GlobalSettings.valid_of_ofTable`, `LinterSettings.valid_of_ofTable`: what was read is valid
* `GlobalSettings.ofTable_dump`, `LinterSettings.ofTable_dump`: valid settings are read as
  themselves
* `Config.ofTable_normalizes`: a configuration is read from its own document
-/

namespace LinterSuite

/-! ### Checks that pass -/

namespace Checked

variable {α β : Type} {location : List String}

theorem and_eq_ok_iff {x : Checked α} {y : Checked β} {p : α × β} :
    and x y = .ok p ↔ x = .ok p.1 ∧ y = .ok p.2 := by
  obtain ⟨a, b⟩ := p
  cases x <;> cases y <;> simp [and]

theorem apply_eq_ok_iff {f : Checked (α → β)} {x : Checked α} {b : β} :
    apply f x = .ok b ↔ ∃ g a, f = .ok g ∧ x = .ok a ∧ g a = b := by
  simp only [apply, Except.map_eq_ok_iff, and_eq_ok_iff, Prod.exists, and_assoc]

theorem at_eq_ok_iff {x : Except Problem α} {a : α} : at_ location x = .ok a ↔ x = .ok a := by
  cases x <;> simp [at_]

end Checked

namespace Value

/-- Texts as a value. -/
def ofTexts (texts : List String) : Value := .array (texts.map .string)

theorem items_toText (location : List String) (texts : List String) (index : Nat) :
    Checked.items location toText index (texts.map .string) = .ok texts := by
  induction texts generalizing index with
  | nil => rfl
  | cons text texts ih =>
    rw [List.map_cons, Checked.items, ih]
    rfl

end Value

namespace Table

variable {α : Type} {t : Table} {key : String} {default a : α}
  {check : List String → Value → Checked α}

/-- What is so of a default and of all that passes a check is so of a setting. -/
theorem of_setting {P : α → Prop} (h : t.setting key default check = .ok a) (hdefault : P default)
    (hcheck : ∀ location v a, check location v = .ok a → P a) : P a := by
  unfold setting at h
  split at h
  · obtain rfl := Except.ok.inj h
    exact hdefault
  · exact hcheck _ _ _ h

/-! ### Sections of given settings -/

/-- The section of those settings that are something. -/
def given (fields : List (String × Option Value)) : Table :=
  fields.filterMap fun f => f.2.map (f.1, ·)

variable {fields : List (String × Option Value)} {v : Option Value}

theorem mem_given {e : String × Value} : e ∈ given fields ↔ (e.1, some e.2) ∈ fields := by
  obtain ⟨key, v⟩ := e
  simp only [given, List.mem_filterMap, Option.map_eq_some_iff, Prod.mk.injEq, Prod.exists]
  constructor
  · rintro ⟨key', w, hmem, v', rfl, rfl, rfl⟩
    exact hmem
  · exact fun hmem => ⟨key, some v, hmem, v, rfl, rfl, rfl⟩

theorem keys_given_sublist : (given fields).keys.Sublist (fields.map (·.1)) := by
  induction fields with
  | nil => exact .slnil
  | cons f fields ih =>
    obtain ⟨key, _ | v⟩ := f
    · exact ih.cons key
    · exact ih.cons_cons key

theorem get?_given_eq_none (h : ∀ v, (key, some v) ∉ fields) : (given fields).get? key = none := by
  refine List.lookup_eq_none_iff.mpr fun e he => bne_iff_ne.mpr ?_
  rintro rfl
  exact h e.2 (mem_given.mp he)

/-- A section has the settings that it was given. -/
theorem get?_given (hdistinct : (fields.map (·.1)).Nodup) (hmem : (key, v) ∈ fields) :
    (given fields).get? key = v := by
  cases v with
  | some v =>
    exact (Keyed.lookup_eq_some_iff (keys_given_sublist.nodup hdistinct)).mpr (mem_given.mpr hmem)
  | none =>
    -- A key that is something and nothing would stand twice among the fields.
    refine get?_given_eq_none fun v hv => ?_
    exact nomatch congrArg (·.2) (List.inj_on_of_nodup_map hdistinct hmem hv rfl)

theorem setting_given (hdistinct : (fields.map (·.1)).Nodup) (hmem : (key, v) ∈ fields) :
    (given fields).setting key default check = v.elim (.ok default) (check [key]) := by
  rw [setting, get?_given hdistinct hmem]
  cases v <;> rfl

theorem unknown_given {known : List String} (h : ∀ f ∈ fields, f.1 ∈ known) :
    (given fields).unknown known = .ok () := by
  have hextra : ((given fields).keys.filter fun k => !known.contains k) = [] := by
    refine List.filter_eq_nil_iff.mpr fun key hkey => ?_
    obtain ⟨f, hf, rfl⟩ := List.mem_map.mp (keys_given_sublist.subset hkey)
    simpa using h f hf
  rw [unknown, hextra]
  rfl

theorem texts_given (hdistinct : (fields.map (·.1)).Nodup) {ss : List String}
    (hmem : (key, some (.ofTexts ss)) ∈ fields) :
    (given fields).setting key [] texts = .ok ss :=
  (setting_given hdistinct hmem).trans (Value.items_toText [key] ss 0)

theorem text_given (hdistinct : (fields.map (·.1)).Nodup) {default s : String}
    (hmem : (key, some (.string s)) ∈ fields) : (given fields).setting key default text = .ok s :=
  (setting_given hdistinct hmem).trans rfl

theorem boolean_given (hdistinct : (fields.map (·.1)).Nodup) {default b : Bool}
    (hmem : (key, some (.boolean b)) ∈ fields) :
    (given fields).setting key default boolean = .ok b :=
  (setting_given hdistinct hmem).trans rfl

end Table

/-! ### Settings of all linters -/

namespace GlobalSettings

variable {g : GlobalSettings} {t : Table}

/-- Settings that no check refuses. -/
structure Valid (g : GlobalSettings) : Prop where
  jobs : ∀ n, g.jobs = some n → 1 ≤ n

/-- A section is read setting by setting. -/
theorem ofTable_eq_ok_iff :
    ofTable t = .ok g ↔ t.setting "excludes" [] Table.texts = .ok g.excludes ∧
      t.setting "cache" true Table.boolean = .ok g.cache ∧
      t.setting "cache_dir" defaultCacheDir Table.text = .ok g.cacheDir ∧
      t.setting "jobs" none jobsSetting = .ok g.jobs ∧ t.unknown keys = .ok () := by
  simp only [ofTable, Except.map_eq_ok_iff, Checked.and_eq_ok_iff, Checked.apply_eq_ok_iff,
    Except.ok.injEq, Prod.exists, exists_and_left, exists_and_right, and_assoc, ↓existsAndEq,
    true_and]
  constructor
  · rintro ⟨_, hexcludes, _, hcache, _, hcacheDir, _, hjobs, ⟨_, hunknown⟩, rfl⟩
    exact ⟨hexcludes, hcache, hcacheDir, hjobs, hunknown⟩
  · rintro ⟨hexcludes, hcache, hcacheDir, hjobs, hunknown⟩
    exact ⟨_, hexcludes, _, hcache, _, hcacheDir, _, hjobs, ⟨_, hunknown⟩, rfl⟩

theorem one_le_of_jobsSetting {location : List String} {v : Value} {jobs : Option Int}
    (h : jobsSetting location v = .ok jobs) : ∀ n, jobs = some n → 1 ≤ n := by
  rintro n rfl
  unfold jobsSetting at h
  rw [Checked.at_eq_ok_iff] at h
  split at h
  · exact nomatch h
  · obtain ⟨m, -, h⟩ := Except.bind_eq_ok_iff.mp h
    split at h
    · exact nomatch h
    · next hm =>
      obtain rfl : m = n := Option.some.inj (Except.ok.inj h)
      exact Int.not_lt.mp hm

/-- Settings that were read are valid. -/
theorem valid_of_ofTable (h : ofTable t = .ok g) : g.Valid := by
  obtain ⟨-, -, -, hjobs, -⟩ := ofTable_eq_ok_iff.mp h
  exact ⟨Table.of_setting hjobs nofun fun _ _ _ => one_le_of_jobsSetting⟩

/-- The settings with their keys; no number of jobs is nothing. -/
def fields (g : GlobalSettings) : List (String × Option Value) :=
  [("excludes", some (.ofTexts g.excludes)), ("cache", some (.boolean g.cache)),
    ("cache_dir", some (.string g.cacheDir)), ("jobs", g.jobs.map .integer)]

theorem nodup_fields (g : GlobalSettings) : (g.fields.map (·.1)).Nodup := by
  have hkeys : g.fields.map (·.1) = keys := rfl
  rw [hkeys]
  decide

/-- The settings as a section. -/
def dump (g : GlobalSettings) : Table := .given g.fields

/-- Valid settings are read as themselves. -/
theorem ofTable_dump (h : g.Valid) : ofTable g.dump = .ok g := by
  have hjobs : (g.jobs.map Value.integer).elim (.ok none) (jobsSetting ["jobs"]) = .ok g.jobs := by
    cases hjobs : g.jobs with
    | none => rfl
    | some n =>
      have hn : ¬ n < 1 := Int.not_lt.mpr (h.jobs n hjobs)
      simp only [Option.map_some, Option.elim_some, jobsSetting, Value.toInteger]
      exact Checked.at_eq_ok_iff.mpr (if_neg hn)
  refine ofTable_eq_ok_iff.mpr ⟨?_, ?_, ?_, ?_, Table.unknown_given fun f hf => ?_⟩
  · exact Table.texts_given g.nodup_fields (by simp [fields])
  · exact Table.boolean_given g.nodup_fields (by simp [fields])
  · exact Table.text_given g.nodup_fields (by simp [fields])
  · exact (Table.setting_given g.nodup_fields (by simp [fields])).trans hjobs
  · exact List.mem_map_of_mem (f := (·.1)) hf

end GlobalSettings

/-! ### Settings of one linter -/

namespace LinterSettings

variable {s : LinterSettings} {t : Table} {name : String}

/-- Settings that no check refuses. -/
structure Valid (s : LinterSettings) : Prop where
  command : ¬ Text.isBlankText s.command
  timeout : ∀ x, s.timeout = some x → x.isPositive

/-- A section is read setting by setting. -/
theorem ofTable_eq_ok_iff :
    ofTable name t = .ok s ↔ name = s.name ∧ command? t = .ok s.command ∧
      t.setting "options" [] Table.texts = .ok s.options ∧
      t.setting "work_dir" none workDirSetting = .ok s.workDir ∧
      t.setting "includes" [] Table.texts = .ok s.includes ∧
      t.setting "excludes" [] Table.texts = .ok s.excludes ∧
      t.setting "formats" [] Table.texts = .ok s.formats ∧
      t.setting "check_hash" false Table.boolean = .ok s.checkHash ∧
      t.setting "exclude_submodules" true Table.boolean = .ok s.excludeSubmodules ∧
      t.setting "single_file" false Table.boolean = .ok s.singleFile ∧
      t.setting "timeout" none timeoutSetting = .ok s.timeout ∧ t.unknown keys = .ok () := by
  simp only [ofTable, Except.map_eq_ok_iff, Checked.and_eq_ok_iff, Checked.apply_eq_ok_iff,
    Except.ok.injEq, Prod.exists, exists_and_left, exists_and_right, and_assoc, ↓existsAndEq,
    true_and]
  constructor
  · rintro ⟨_, hcommand, _, hoptions, _, hworkDir, _, hincludes, _, hexcludes, _, hformats, _,
      hcheckHash, _, hsubmodules, _, hsingleFile, _, htimeout, ⟨_, hunknown⟩, rfl⟩
    exact ⟨rfl, hcommand, hoptions, hworkDir, hincludes, hexcludes, hformats, hcheckHash,
      hsubmodules, hsingleFile, htimeout, hunknown⟩
  · rintro ⟨rfl, hcommand, hoptions, hworkDir, hincludes, hexcludes, hformats, hcheckHash,
      hsubmodules, hsingleFile, htimeout, hunknown⟩
    exact ⟨_, hcommand, _, hoptions, _, hworkDir, _, hincludes, _, hexcludes, _, hformats, _,
      hcheckHash, _, hsubmodules, _, hsingleFile, _, htimeout, ⟨_, hunknown⟩, rfl⟩

theorem not_blank_of_command? {command : String} (h : command? t = .ok command) :
    ¬ Text.isBlankText command := by
  unfold command? at h
  split at h
  · exact nomatch h
  · unfold commandSetting at h
    obtain ⟨text, -, h⟩ := Except.bind_eq_ok_iff.mp (Checked.at_eq_ok_iff.mp h)
    split at h
    · exact nomatch h
    · next hblank =>
      obtain rfl := Except.ok.inj h
      exact hblank

theorem isPositive_of_timeoutSetting {location : List String} {v : Value}
    {timeout : Option Binary64} (h : timeoutSetting location v = .ok timeout) :
    ∀ x, timeout = some x → x.isPositive := by
  rintro x rfl
  unfold timeoutSetting at h
  rw [Checked.at_eq_ok_iff] at h
  split at h
  · exact nomatch h
  · obtain ⟨y, -, h⟩ := Except.bind_eq_ok_iff.mp h
    split at h
    · next hy =>
      obtain rfl : y = x := Option.some.inj (Except.ok.inj h)
      exact hy
    · exact nomatch h

/-- Settings that were read are valid. -/
theorem valid_of_ofTable (h : ofTable name t = .ok s) : s.Valid := by
  obtain ⟨-, hcommand, -, -, -, -, -, -, -, -, htimeout, -⟩ := ofTable_eq_ok_iff.mp h
  exact ⟨not_blank_of_command? hcommand,
    Table.of_setting htimeout nofun fun _ _ _ => isPositive_of_timeoutSetting⟩

/-- The settings with their keys; no directory and no time limit are nothing. -/
def fields (s : LinterSettings) : List (String × Option Value) :=
  [("command", some (.string s.command)), ("options", some (.ofTexts s.options)),
    ("work_dir", s.workDir.map .string), ("includes", some (.ofTexts s.includes)),
    ("excludes", some (.ofTexts s.excludes)), ("formats", some (.ofTexts s.formats)),
    ("check_hash", some (.boolean s.checkHash)),
    ("exclude_submodules", some (.boolean s.excludeSubmodules)),
    ("single_file", some (.boolean s.singleFile)), ("timeout", s.timeout.map .float)]

/-- The settings as a section, without the name. -/
def dump (s : LinterSettings) : Table := .given s.fields

theorem nodup_fields (s : LinterSettings) : (s.fields.map (·.1)).Nodup := by
  have hkeys : s.fields.map (·.1) = keys.tail := rfl
  rw [hkeys]
  decide

/-- Valid settings are read as themselves. -/
theorem ofTable_dump (h : s.Valid) : ofTable s.name s.dump = .ok s := by
  have hcommand : command? s.dump = .ok s.command := by
    rw [command?, dump, Table.get?_given s.nodup_fields (.head _)]
    exact Checked.at_eq_ok_iff.mpr (if_neg h.command)
  have hworkDir :
      (s.workDir.map Value.string).elim (.ok none) (workDirSetting ["work_dir"]) =
        .ok s.workDir := by
    cases s.workDir <;> rfl
  have htimeout :
      (s.timeout.map Value.float).elim (.ok none) (timeoutSetting ["timeout"]) =
        .ok s.timeout := by
    cases htimeout : s.timeout with
    | none => rfl
    | some x => exact Checked.at_eq_ok_iff.mpr (if_pos (h.timeout x htimeout))
  -- Key by key, in the order in which the section is read.
  refine ofTable_eq_ok_iff.mpr ⟨rfl, hcommand, ?_, ?_, ?_, ?_, ?_, ?_, ?_, ?_, ?_,
    Table.unknown_given fun f hf => ?_⟩
  · exact Table.texts_given s.nodup_fields (by simp [fields])
  · exact (Table.setting_given s.nodup_fields (by simp [fields])).trans hworkDir
  · exact Table.texts_given s.nodup_fields (by simp [fields])
  · exact Table.texts_given s.nodup_fields (by simp [fields])
  · exact Table.texts_given s.nodup_fields (by simp [fields])
  · exact Table.boolean_given s.nodup_fields (by simp [fields])
  · exact Table.boolean_given s.nodup_fields (by simp [fields])
  · exact Table.boolean_given s.nodup_fields (by simp [fields])
  · exact (Table.setting_given s.nodup_fields (by simp [fields])).trans htimeout
  · exact List.mem_cons_of_mem _ (List.mem_map_of_mem (f := (·.1)) hf)

end LinterSettings

/-! ### Configurations -/

namespace Config

variable {c : Config} {root : Path} {sources : List Path} {data : Table}
  {entries : List (String × Value)} {linters : List LinterSettings}

/-- A linter is read from a table that sets no name, and the rest behind it. -/
theorem lintersOf_table_eq_ok_iff {name : String} {t : Table} :
    lintersOf ((name, .table t) :: entries) = .ok linters ↔ Table.get? t "name" = none ∧
      ∃ s rest, LinterSettings.ofTable name t = .ok s ∧ lintersOf entries = .ok rest ∧
        linters = s :: rest := by
  cases hname : Table.get? t "name" with
  | some v =>
    have hnamed : lintersOf ((name, .table t) :: entries) = .error (.linterNamed name) :=
      if_pos (by simp [hname])
    simp [hnamed]
  | none =>
    cases hs : LinterSettings.ofTable name t with
    | error findings =>
      have hread : lintersOf ((name, .table t) :: entries) =
          .error (.invalid s!"linter.{name}" findings) := by
        refine (if_neg (by simp [hname])).trans ?_
        rw [hs]
      simp [hread]
    | ok s =>
      have hread : lintersOf ((name, .table t) :: entries) =
          lintersOf entries >>= fun rest => .ok (s :: rest) := by
        refine (if_neg (by simp [hname])).trans ?_
        rw [hs]
        rfl
      rw [hread, Except.bind_eq_ok_iff]
      constructor
      · rintro ⟨rest, hrest, h⟩
        exact ⟨rfl, s, rest, rfl, hrest, (Except.ok.inj h).symm⟩
      · rintro ⟨-, _, rest, hs', hrest, rfl⟩
        obtain rfl := Except.ok.inj hs'
        exact ⟨rest, hrest, rfl⟩

/-- The linters of a section are read one by one, each from a table that sets no name. -/
theorem lintersOf_eq_ok_iff :
    lintersOf entries = .ok linters ↔ List.Forall₂ (fun e s => ∃ t, e.2 = .table t ∧
      Table.get? t "name" = none ∧ LinterSettings.ofTable e.1 t = .ok s) entries linters := by
  induction entries generalizing linters with
  | nil =>
    have hnil : lintersOf [] = .ok [] := rfl
    rw [hnil, List.forall₂_nil_left_iff, Except.ok.injEq, eq_comm]
  | cons e entries ih =>
    obtain ⟨name, v⟩ := e
    rw [List.forall₂_cons_left_iff]
    -- What is no table is refused at once.
    by_cases hv : ∃ t, v = .table t
    · obtain ⟨t, rfl⟩ := hv
      rw [lintersOf_table_eq_ok_iff]
      constructor
      · rintro ⟨hname, s, rest, hs, hrest, rfl⟩
        exact ⟨s, rest, ⟨t, rfl, hname, hs⟩, ih.mp hrest, rfl⟩
      · rintro ⟨s, rest, ⟨_, htable, hname, hs⟩, hrest, rfl⟩
        obtain rfl := Value.table.inj htable
        exact ⟨hname, s, rest, hs, ih.mpr hrest, rfl⟩
    · have hnone : lintersOf ((name, v) :: entries) = .error (.linterNotTable name) := by
        cases v with
        | table t => exact absurd ⟨t, rfl⟩ hv
        | _ => rfl
      rw [hnone]
      constructor
      · exact nofun
      · rintro ⟨s, rest, ⟨t, rfl, -, -⟩, -, -⟩
        exact absurd ⟨t, rfl⟩ hv

theorem ofTable_eq_ok_iff :
    ofTable root sources data = .ok c ↔ c.root = root ∧ c.sources = sources ∧
      ∃ globals table, section? data "global" = some globals ∧ section? data "linter" = some table ∧
        GlobalSettings.ofTable globals = .ok c.globals ∧ lintersOf table = .ok c.linters := by
  constructor
  · intro h
    unfold ofTable at h
    split at h
    · next globalTable hglobal =>
      split at h
      · next linterTable hlinter =>
        split at h
        · exact nomatch h
        · next globals hglobals =>
          obtain ⟨linters, hlinters, h⟩ := Except.bind_eq_ok_iff.mp h
          obtain rfl := Except.ok.inj h
          exact ⟨rfl, rfl, globalTable, linterTable, hglobal, hlinter, hglobals, hlinters⟩
      · exact nomatch h
    · exact nomatch h
  · rintro ⟨rfl, rfl, globalTable, linterTable, hglobal, hlinter, hglobals, hlinters⟩
    simp only [ofTable, hglobal, hlinter, hglobals, hlinters]
    rfl

/-- The configuration as a document. -/
def dump (c : Config) : Table :=
  [("global", .table c.globals.dump),
    ("linter", .table (c.linters.map fun s => (s.name, .table s.dump)))]

/-- Linters are in the order of their section. -/
theorem names_of_lintersOf (h : lintersOf entries = .ok linters) :
    linters.map (·.name) = Table.keys entries := by
  have hnames := lintersOf_eq_ok_iff.mp h
  clear h
  induction hnames with
  | nil => rfl
  | cons hs _ ih =>
    obtain ⟨t, -, -, hs⟩ := hs
    rw [List.map_cons, ih, ← (LinterSettings.ofTable_eq_ok_iff.mp hs).1]
    rfl

theorem valid_of_lintersOf (h : lintersOf entries = .ok linters) : ∀ s ∈ linters, s.Valid := by
  have hread := lintersOf_eq_ok_iff.mp h
  clear h
  induction hread with
  | nil => simp
  | cons hs _ ih =>
    obtain ⟨t, -, -, hs⟩ := hs
    exact List.forall_mem_cons.mpr ⟨LinterSettings.valid_of_ofTable hs, ih⟩

theorem lintersOf_dumps (h : ∀ s ∈ linters, s.Valid) :
    lintersOf (linters.map fun s => (s.name, .table s.dump)) = .ok linters := by
  rw [lintersOf_eq_ok_iff, List.forall₂_map_left_iff, List.forall₂_same]
  intro s hs
  refine ⟨s.dump, rfl, ?_, LinterSettings.ofTable_dump (h s hs)⟩
  -- The name is the key of the section, and is not set in it.
  exact Table.get?_given_eq_none fun v => by simp [LinterSettings.fields]

/-- Reading a configuration settles it. Its document is accepted, and the configuration that is read
from it is the same. Every linter of a configuration has a command that says something, at least one
job may run, and the linters are in the order of their section. -/
theorem ofTable_normalizes (h : ofTable root sources data = .ok c) :
    ofTable root sources c.dump = .ok c ∧
      (∀ s ∈ c.linters, ∃ char ∈ s.command.toList, ¬ Text.isBlank char) ∧
      (∀ n, c.globals.jobs = some n → 1 ≤ n) ∧
      ∃ linterTable, section? data "linter" = some linterTable ∧
        c.linters.map (·.name) = linterTable.keys := by
  obtain ⟨hroot, hsources, globalTable, linterTable, -, hlinter, hglobals, hlinters⟩ :=
    ofTable_eq_ok_iff.mp h
  have hvalid := GlobalSettings.valid_of_ofTable hglobals
  have hvalid' := valid_of_lintersOf hlinters
  refine ⟨?_, ?_, hvalid.jobs, linterTable, hlinter, names_of_lintersOf hlinters⟩
  · exact ofTable_eq_ok_iff.mpr ⟨hroot, hsources, _, _, rfl, rfl,
      GlobalSettings.ofTable_dump hvalid, lintersOf_dumps hvalid'⟩
  · intro s hs
    simpa [Text.isBlankText] using (hvalid' s hs).command

/-- A document with settings in loose types: a number of jobs and truth values as texts and numbers,
and a time limit without a fraction. -/
theorem ofTable_normalizes_loose :
    let data : Table := [("linter", .table [("b", .table [("timeout", .integer 5),
        ("command", .string " b "), ("check_hash", .string "Yes")]),
        ("a", .table [("command", .string "a"), ("single_file", .float (.ofInt 1))])]),
      ("global", .table [("jobs", .string " 1_0 "), ("cache", .integer 0)])]
    ∃ c, ofTable ⟨.root, ["p"]⟩ [] data = .ok c ∧
      c.globals.jobs = some 10 ∧ c.linters.map (·.checkHash) = [true, false] ∧
      ofTable ⟨.root, ["p"]⟩ [] c.dump = .ok c ∧
      (∀ s ∈ c.linters, ∃ char ∈ s.command.toList, ¬ Text.isBlank char) ∧
      (∀ n, c.globals.jobs = some n → 1 ≤ n) ∧ c.linters.map (·.name) = ["b", "a"] := by
  intro data
  obtain ⟨c, hc, hjobs, hcheckHash⟩ : ∃ c, ofTable ⟨.root, ["p"]⟩ [] data = .ok c ∧
      c.globals.jobs = some 10 ∧ c.linters.map (·.checkHash) = [true, false] := ⟨_, rfl, rfl, rfl⟩
  obtain ⟨hagain, hcommands, hpositive, linterTable, hlinter, hnames⟩ := ofTable_normalizes hc
  obtain rfl := Option.some.inj hlinter
  exact ⟨c, hc, hjobs, hcheckHash, hagain, hcommands, hpositive, hnames⟩

end Config

end LinterSuite
