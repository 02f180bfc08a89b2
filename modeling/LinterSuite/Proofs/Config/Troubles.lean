import LinterSuite.Config.Source
import LinterSuite.Proofs.Fallible
import LinterSuite.Run.Target

/-!
# What keeps a configuration from being read

Most of what can be wrong with a configuration is told as an error of the configuration. What else
can go wrong is listed here, with the place where it does: a file whose bytes are no text, or hold
an integer or a nesting that is too large, and a linter whose directory cannot be worked out.

## Main definitions

* `LoadError.IsConfig`, `RunFailure.IsConfig`: errors that are told as such
* `LoadError.OfBytes`: what is wrong with bytes of which no document can be made
* `FileTree.Stumbles`: some files of which one has such bytes
* `LinterSettings.Adrift`: a linter whose directory cannot be worked out

## Main results

* `FileTree.mergeConfigs_stops_iff`: when files cannot be merged, and no error of the configuration
  says so
* `FileTree.targetsOf_stops_iff`: when linters have no targets, and none says so
-/

namespace LinterSuite

/-! ### Errors of the configuration -/

/-- It is told as an error of the configuration. -/
def LoadError.IsConfig : LoadError → Prop
  | config _ => True
  | _ => False

/-- It is told as an error of the configuration. -/
def RunFailure.IsConfig : RunFailure → Prop
  | config _ => True
  | _ => False

/-! ### Files -/

/-- What is wrong with bytes of which no document can be made, other than that they are no TOML. -/
inductive LoadError.OfBytes (bytes : List UInt8) : LoadError → Prop
  | notText (text : Text.ofUtf8? bytes = none) : OfBytes bytes .notText
  | numeral {s : String} {e : Text.NumeralTooLong} (text : Text.ofUtf8? bytes = some s)
      (read : Toml.read s = .error (.numeral e)) : OfBytes bytes (.numeral e)
  | tooDeep {s : String} {n : Text.Nesting} (text : Text.ofUtf8? bytes = some s)
      (read : Toml.read s = .error (.tooDeep n)) : OfBytes bytes (.tooDeep n)

theorem LoadError.OfBytes.not_isConfig {bytes : List UInt8} {e : LoadError} (h : OfBytes bytes e) :
    ¬ e.IsConfig := by
  cases h <;> exact id

namespace FileTree

variable {t : FileTree} {p : Path} {base : Table} {files : List Path} {e : LoadError}

theorem isFile_of_ask (h : t.ask isFile p = .ok true) : t.isFile p := by
  unfold ask at h
  split at h
  · exact nomatch h
  · exact Except.ok.inj h

theorem exists_read_of_isFile (h : t.isFile p) : ∃ bytes, t.read p = .ok bytes := by
  unfold isFile at h
  split at h
  · next data hstat => exact ⟨data.content, by simp [read, hstat, bind, Except.bind]; rfl⟩
  · exact nomatch h

/-- A file is not read, other than by an error of the configuration, exactly if its bytes are bad.
-/
theorem readConfig_stops_iff (hfile : t.isFile p) :
    (t.readConfig p = .error e ∧ ¬ e.IsConfig) ↔
      ∃ bytes, t.read p = .ok bytes ∧ e.OfBytes bytes := by
  obtain ⟨bytes, hbytes⟩ := exists_read_of_isFile hfile
  constructor
  · rintro ⟨h, hconfig⟩
    refine ⟨bytes, hbytes, ?_⟩
    unfold readConfig at h
    simp only [hbytes] at h
    cases htext : Text.ofUtf8? bytes with
    | none =>
      simp only [htext] at h
      obtain rfl := Except.error.inj h
      exact .notText htext
    | some s =>
      simp only [htext] at h
      -- Of what keeps a text from being read, only malformed TOML is told as an error of the
      -- configuration.
      rcases hread : Toml.read s with (_ | e' | n) | data
      · simp only [hread] at h
        obtain rfl := Except.error.inj h
        exact absurd trivial hconfig
      · simp only [hread] at h
        obtain rfl := Except.error.inj h
        exact .numeral htext hread
      · simp only [hread] at h
        obtain rfl := Except.error.inj h
        exact .tooDeep htext hread
      · simp only [hread] at h
        split at h
        · exact nomatch h
        · obtain rfl := Except.error.inj h
          exact absurd trivial hconfig
  · rintro ⟨bytes', hbytes', h⟩
    refine ⟨?_, h.not_isConfig⟩
    unfold readConfig
    cases h with
    | notText text => simp only [hbytes', text]
    | numeral text read | tooDeep text read => simp only [hbytes', text, read]

/-- Some files of which all before a certain one can be merged, and that one has bad bytes. -/
def Stumbles (t : FileTree) (base : Table) (files : List Path) (e : LoadError) : Prop :=
  ∃ before p after merged bytes, files = before ++ p :: after ∧
    (t.mergeConfigs base before).2 = .ok merged ∧ t.read p = .ok bytes ∧ e.OfBytes bytes

/-- Files are merged one after the other. -/
theorem mergeConfigs_append {before : List Path} {merged : Table}
    (h : (t.mergeConfigs base before).2 = .ok merged) (files : List Path) :
    (t.mergeConfigs base (before ++ files)).2 = (t.mergeConfigs merged files).2 := by
  induction before generalizing base with
  | nil =>
    obtain rfl : base = merged := Except.ok.inj h
    rfl
  | cons p before ih =>
    rw [List.cons_append, mergeConfigs]
    rw [mergeConfigs] at h
    cases hread : t.readConfig p with
    | error e =>
      simp only [hread] at h
      exact nomatch h
    | ok later =>
      simp only [hread] at h ⊢
      cases hmerge : Table.merge p.toString base later with
      | error e =>
        simp only [hmerge] at h
        exact nomatch h
      | ok next =>
        simp only [hmerge] at h ⊢
        exact ih h

/-- Files cannot be merged, other than by an error of the configuration, exactly if one of them has
bad bytes. -/
theorem mergeConfigs_stops_iff (hfiles : ∀ p ∈ files, t.isFile p) :
    ((t.mergeConfigs base files).2 = .error e ∧ ¬ e.IsConfig) ↔ t.Stumbles base files e := by
  constructor
  · rintro ⟨h, hconfig⟩
    -- The induction is on the files that are left, with what was merged before them.
    induction files generalizing base with
    | nil => exact nomatch h
    | cons p files ih =>
      obtain ⟨hfile, hfiles⟩ := List.forall_mem_cons.mp hfiles
      rw [mergeConfigs] at h
      cases hread : t.readConfig p with
      | error e' =>
        simp only [hread] at h
        obtain rfl := Except.error.inj h
        obtain ⟨bytes, hbytes, hbad⟩ := (readConfig_stops_iff hfile).mp ⟨hread, hconfig⟩
        exact ⟨[], p, files, base, bytes, rfl, rfl, hbytes, hbad⟩
      | ok later =>
        simp only [hread] at h
        cases hmerge : Table.merge p.toString base later with
        | error change =>
          simp only [hmerge] at h
          obtain rfl := Except.error.inj h
          exact absurd trivial hconfig
        | ok next =>
          simp only [hmerge] at h
          obtain ⟨before, q, after, merged, bytes, rfl, hmerged, hbytes, hbad⟩ := ih hfiles h
          refine ⟨p :: before, q, after, merged, bytes, rfl, ?_, hbytes, hbad⟩
          rw [mergeConfigs]
          simp only [hread, hmerge, hmerged]
  · rintro ⟨before, p, after, merged, bytes, rfl, hmerged, hbytes, hbad⟩
    have hfile : t.isFile p := hfiles p (by simp)
    obtain ⟨hread, hconfig⟩ := (readConfig_stops_iff hfile).mpr ⟨bytes, hbytes, hbad⟩
    refine ⟨?_, hconfig⟩
    rw [mergeConfigs_append hmerged, mergeConfigs]
    simp only [hread]

/-- The files that count are there. -/
theorem isFile_of_configSources {places : ConfigPlaces} (h : t.configSources places = .ok files) :
    ∀ p ∈ files, t.isFile p := by
  intro p hp
  unfold configSources at h
  split at h
  · obtain ⟨found, hfound, rfl⟩ := Except.map_eq_ok_iff.mp (Except.mapError_eq_ok_iff.mp h)
    exact isFile_of_ask (Except.of_mem_filterM hfound (List.mem_reverse.mp hp))
  · next q _ =>
    split at h
    · next hask =>
      obtain rfl := Except.ok.inj h
      obtain rfl := List.mem_singleton.mp hp
      exact isFile_of_ask hask
    · exact nomatch h
    · exact nomatch h

end FileTree

/-! ### Directories of linters -/

/-- A linter whose directory cannot be worked out: it names a home that is not known, or a path that
cannot be asked about or made absolute. -/
inductive LinterSettings.Adrift (homes : Homes) (root : Path) (t : FileTree) (s : LinterSettings) :
    RunFailure → Prop
  | homeless {e : HomeError} (home : s.workDirFrom homes root = .error e) :
      Adrift homes root t s (.home e)
  | unasked {p : Path} {e : FileTree.PathError} (named : s.workDirFrom homes root = .ok p)
      (ask : t.ask FileTree.isDir p = .error e) : Adrift homes root t s (.path e)
  | unreal {p : Path} {e : FileTree.PathError} (named : s.workDirFrom homes root = .ok p)
      (ask : t.ask FileTree.isDir p = .ok true) (real : t.realPath p = .error e) :
      Adrift homes root t s (.path e)

namespace FileTree

variable {digest : Digest} {homes : Homes} {t : FileTree} {root : Path} {s : LinterSettings}
  {linters : List LinterSettings} {e : RunFailure}

theorem fingerprint_error_iff {p : Path} {e : PathError} :
    t.fingerprint digest s p = .error e ↔ t.realPath p = .error e := by
  unfold fingerprint
  cases t.realPath p <;> simp [bind, Except.bind, pure, Except.pure]

/-- A linter has no target, other than by an error of the configuration, exactly if its directory
cannot be worked out. -/
theorem target_stops_iff :
    (t.target digest homes root s = .error e ∧ ¬ e.IsConfig) ↔
      (∃ grammars, Grammar.compileAll s.formats = .ok grammars) ∧ s.Adrift homes root t e := by
  constructor
  · rintro ⟨h, hconfig⟩
    unfold target at h
    split at h
    · obtain rfl := Except.error.inj h
      exact absurd trivial hconfig
    · next grammars hgrammars =>
      refine ⟨⟨grammars, hgrammars⟩, ?_⟩
      split at h
      · next hhome =>
        obtain rfl := Except.error.inj h
        exact .homeless hhome
      · next p hnamed =>
        split at h
        · next hask =>
          obtain rfl := Except.error.inj h
          exact .unasked hnamed hask
        · obtain rfl := Except.error.inj h
          exact absurd trivial hconfig
        · next hask =>
          split at h
          · next hfingerprint =>
            obtain rfl := Except.error.inj h
            exact .unreal hnamed hask (fingerprint_error_iff.mp hfingerprint)
          · exact nomatch h
  · rintro ⟨⟨grammars, hgrammars⟩, h⟩
    cases h with
    | homeless home => exact ⟨by simp only [target, hgrammars, home], id⟩
    | unasked named ask => exact ⟨by simp only [target, hgrammars, named, ask], id⟩
    | unreal named ask real =>
      refine ⟨?_, id⟩
      simp only [target, hgrammars, named, ask, fingerprint_error_iff.mpr real]

/-- Linters have no targets exactly if one of them has none and those before it have. -/
theorem targetsOf_error_iff :
    t.targetsOf digest homes root linters = .error e ↔
      ∃ before s after targets, linters = before ++ s :: after ∧
        t.targetsOf digest homes root before = .ok targets ∧
        t.target digest homes root s = .error e := by
  constructor
  · intro h
    induction linters with
    | nil => cases h
    | cons s linters ih =>
      rw [targetsOf] at h
      cases htarget : t.target digest homes root s with
      | error e' =>
        rw [htarget] at h
        obtain rfl := Except.error.inj h
        exact ⟨[], s, linters, [], rfl, rfl, htarget⟩
      | ok target =>
        cases hrest : t.targetsOf digest homes root linters with
        | ok targets =>
          rw [htarget, hrest] at h
          cases h
        | error e' =>
          rw [htarget, hrest] at h
          obtain rfl := Except.error.inj h
          obtain ⟨before, s', after, targets, rfl, hbefore, hs'⟩ := ih hrest
          refine ⟨s :: before, s', after, target :: targets, rfl, ?_, hs'⟩
          rw [targetsOf, htarget, hbefore]
          rfl
  · rintro ⟨before, s, after, targets, rfl, hbefore, hs⟩
    rw [targetsOf_append, hbefore, targetsOf, hs]
    rfl

/-- Linters have no targets, other than by an error of the configuration, exactly if the directory
of one cannot be worked out whose formats can be read, and those before it have targets. -/
theorem targetsOf_stops_iff :
    (t.targetsOf digest homes root linters = .error e ∧ ¬ e.IsConfig) ↔
      ∃ before s after targets grammars, linters = before ++ s :: after ∧
        t.targetsOf digest homes root before = .ok targets ∧
        Grammar.compileAll s.formats = .ok grammars ∧ s.Adrift homes root t e := by
  constructor
  · rintro ⟨h, hconfig⟩
    obtain ⟨before, s, after, targets, hlinters, hbefore, hs⟩ := targetsOf_error_iff.mp h
    obtain ⟨⟨grammars, hgrammars⟩, hadrift⟩ := target_stops_iff.mp ⟨hs, hconfig⟩
    exact ⟨before, s, after, targets, grammars, hlinters, hbefore, hgrammars, hadrift⟩
  · rintro ⟨before, s, after, targets, grammars, hlinters, hbefore, hgrammars, hadrift⟩
    obtain ⟨hs, hconfig⟩ : t.target digest homes root s = .error e ∧ ¬ e.IsConfig :=
      target_stops_iff.mpr ⟨⟨grammars, hgrammars⟩, hadrift⟩
    exact ⟨targetsOf_error_iff.mpr ⟨before, s, after, targets, hlinters, hbefore, hs⟩, hconfig⟩

end FileTree

end LinterSuite
