import LinterSuite.CommandLine
import LinterSuite.Proofs.Config.Troubles
import LinterSuite.Proofs.Run.Samples

/-!
# How a bad configuration ends

Before anything is run, the configuration is read and merged, the directories of its linters are
found, and that of the cache. What is wrong with it should be told as an error of the configuration,
with an exit status of its own. That is so, but for a list of troubles that end the program at once:
bytes that are no text, an integer or a nesting that is too large, and directories that cannot be
worked out.

## Main definitions

* `CommandLine.Resolution`, `CommandLine.resolve`: how resolving a configuration ends
* `CommandLine.Trouble`: the troubles that are not told as errors of the configuration

## Main results

* `CommandLine.lint_of_refused`, `CommandLine.lint_of_stopped`: what the program does about it
* `CommandLine.resolve_stops_iff`: the troubles are those of the list
* `CommandLine.resolution_exact`: both taken together
* `CommandLine.lint_stopped_by_byte`: a single byte is such a trouble
-/

namespace LinterSuite.CommandLine

variable {σ : Type}

/-! ### Resolving a configuration -/

/-- The directory that the program starts from. -/
def Options.start (options : Options) (t : FileTree) : Path := options.workDir.getD ⟨.root, t.cwd⟩

/-- The configuration that is asked for. -/
def Options.request (options : Options) (t : FileTree) : ConfigRequest :=
  { start := options.start t, file := options.config, root := options.workDir }

/-- How resolving a configuration ends. -/
inductive Resolution where
  /-- There is a target for every linter, and a directory for the cache. -/
  | resolved (c : Config) (targets : List Target) (cacheDir : Path)
  /-- There is an error of the configuration. -/
  | refused (e : ConfigError)
  /-- The program ends at once. -/
  | stopped (exit : Exit)

/-- How resolving the configuration that is asked for ends. -/
def resolve (around : Surroundings σ) (options : Options) (t : FileTree) : Resolution :=
  match (loadConfig t (options.start t) options).2 with
  | .error (.config e) => .refused e
  | .error e => .stopped (.loadStopped e)
  | .ok c =>
    match t.targets around.setup.digest around.setup.homes c with
    | .error (.config e) => .refused e
    | .error e => .stopped (.runStopped e)
    | .ok targets =>
      match c.cachePath around.setup.homes with
      | .error e => .stopped (.runStopped (.home e))
      | .ok cacheDir => .resolved c targets cacheDir

/-- The troubles that are not told as errors of the configuration. -/
inductive Trouble (around : Surroundings σ) (options : Options) (t : FileTree) : Exit → Prop
  /-- A path of the command line cannot be made absolute. -/
  | place {e : FileTree.PathError} (places : t.configPlaces (options.request t) = .error e) :
      Trouble around options t (.loadStopped (.path e))
  /-- It cannot be asked about, or one above it. -/
  | source {places : ConfigPlaces} {e : FileTree.PathError}
      (found : t.configPlaces (options.request t) = .ok places)
      (sources : t.configSources places = .error (.path e)) :
      Trouble around options t (.loadStopped (.path e))
  /-- A file has bytes of which no document can be made. -/
  | document {places : ConfigPlaces} {files : List Path} {e : LoadError}
      (found : t.configPlaces (options.request t) = .ok places)
      (sources : t.configSources places = .ok files) (stumbles : t.Stumbles [] files e) :
      Trouble around options t (.loadStopped e)
  /-- The directory of a linter cannot be worked out. -/
  | workDir {c : Config} {before after : List LinterSettings} {s : LinterSettings}
      {targets : List Target} {grammars : List Grammar} {e : RunFailure}
      (loaded : (loadConfig t (options.start t) options).2 = .ok c)
      (linters : c.linters = before ++ s :: after)
      (fit : t.targetsOf around.setup.digest around.setup.homes c.root before = .ok targets)
      (formats : Grammar.compileAll s.formats = .ok grammars)
      (adrift : s.Adrift around.setup.homes c.root t e) :
      Trouble around options t (.runStopped e)
  /-- The directory of the cache is in a home that is not known. -/
  | cacheDir {c : Config} {targets : List Target} {e : HomeError}
      (loaded : (loadConfig t (options.start t) options).2 = .ok c)
      (fit : t.targets around.setup.digest around.setup.homes c = .ok targets)
      (home : c.cachePath around.setup.homes = .error e) :
      Trouble around options t (.runStopped (.home e))

/-! ### The troubles are those of the list -/

section Loading

variable {options : Options} {t : FileTree} {e : LoadError}

/-- The configuration that is asked for, without the notes on its loading. -/
theorem loadConfig_snd (t : FileTree) (options : Options) :
    (loadConfig t (options.start t) options).2 =
      match t.configPlaces (options.request t) with
      | .error e => .error (.path e)
      | .ok places =>
        match t.configSources places with
        | .error e => .error e
        | .ok files =>
          (t.loadConfigs places.root files).2 >>= fun c =>
            (c.select options.linters).mapError .config := by
  unfold loadConfig Options.request
  cases t.configPlaces
    { start := options.start t, file := options.config, root := options.workDir } with
  | error e => rfl
  | ok places =>
    dsimp only
    cases t.configSources places with
    | error e => rfl
    | ok files =>
      cases hloaded : (t.loadConfigs places.root files).2 <;>
        simp [hloaded, bind, Except.bind, Except.mapError]

/-- Whatever follows on merged files ends in an error of the configuration or not at all. -/
theorem loadConfigs_stops_iff {root : Path} {files : List Path} (names : List String)
    (hfiles : ∀ p ∈ files, t.isFile p) :
    (((t.loadConfigs root files).2 >>= fun c => (c.select names).mapError .config) = .error e ∧
      ¬ e.IsConfig) ↔ t.Stumbles [] files e := by
  rw [← FileTree.mergeConfigs_stops_iff hfiles]
  refine and_congr_left fun hconfig => ?_
  -- What is checked after the merge can fail with an error of the configuration only.
  have hnever : ∀ {α : Type} {x : Except ConfigError α}, x.mapError .config ≠ .error e := by
    intro α x h
    obtain ⟨e', -, rfl⟩ := Except.mapError_eq_error_iff.mp h
    exact hconfig trivial
  have hloaded : (t.loadConfigs root files).2 = (t.mergeConfigs [] files).2 >>= fun merged =>
      (Config.ofTable root files merged).mapError .config := rfl
  rw [hloaded, Except.bind_eq_error_iff, Except.bind_eq_error_iff]
  constructor
  · rintro ((h | ⟨_, -, h⟩) | ⟨_, -, h⟩)
    · exact h
    · exact absurd h hnever
    · exact absurd h hnever
  · exact fun h => .inl (.inl h)

theorem configSources_error {places : ConfigPlaces} (h : t.configSources places = .error e) :
    e.IsConfig ∨ ∃ e', e = .path e' := by
  unfold FileTree.configSources at h
  split at h
  · obtain ⟨e', -, rfl⟩ := Except.mapError_eq_error_iff.mp h
    exact .inr ⟨e', rfl⟩
  · split at h
    · exact nomatch h
    · obtain rfl := Except.error.inj h
      exact .inl trivial
    · next e' _ =>
      obtain rfl := Except.error.inj h
      exact .inr ⟨e', rfl⟩

/-- A configuration is not loaded, other than by an error of the configuration, exactly if it meets
one of the troubles with paths and files. -/
theorem loadConfig_stops_iff {σ : Type} (around : Surroundings σ) :
    ((loadConfig t (options.start t) options).2 = .error e ∧ ¬ e.IsConfig) ↔
      Trouble around options t (.loadStopped e) := by
  rw [loadConfig_snd]
  constructor
  · rintro ⟨h, hconfig⟩
    cases hplaces : t.configPlaces (options.request t) with
    | error e' =>
      simp only [hplaces] at h
      obtain rfl := Except.error.inj h
      exact .place hplaces
    | ok places =>
      simp only [hplaces] at h
      cases hsources : t.configSources places with
      | error e' =>
        simp only [hsources] at h
        obtain rfl := Except.error.inj h
        obtain ⟨e, rfl⟩ := (configSources_error hsources).resolve_left hconfig
        exact .source hplaces hsources
      | ok files =>
        simp only [hsources] at h
        have hfiles := FileTree.isFile_of_configSources hsources
        exact .document hplaces hsources ((loadConfigs_stops_iff _ hfiles).mp ⟨h, hconfig⟩)
  · intro h
    cases h with
    | place places => exact ⟨by simp only [places], id⟩
    | source places sources => exact ⟨by simp only [places, sources], id⟩
    | document places sources stumbles =>
      have hfiles := FileTree.isFile_of_configSources sources
      simp only [places, sources]
      exact (loadConfigs_stops_iff _ hfiles).mpr stumbles

end Loading

section Resolving

variable {around : Surroundings σ} {options : Options} {t : FileTree}

/-- Resolving a configuration stops exactly if it meets one of the troubles. -/
theorem resolve_stops_iff {x : Exit} :
    resolve around options t = .stopped x ↔ Trouble around options t x := by
  unfold resolve
  constructor
  · intro h
    -- The configuration is loaded, then its targets are found, and last the directory of its cache.
    split at h
    · exact nomatch h
    · next e hconfig hload =>
      obtain rfl := Resolution.stopped.inj h
      refine (loadConfig_stops_iff around).mp ⟨hload, ?_⟩
      cases e with
      | config e => exact absurd rfl (hconfig e)
      | _ => exact id
    · next c hload =>
      split at h
      · exact nomatch h
      · next e hconfig htargets =>
        obtain rfl := Resolution.stopped.inj h
        have hnot : ¬ e.IsConfig := by
          cases e with
          | config e => exact absurd rfl (hconfig e)
          | _ => exact id
        obtain ⟨before, s, after, targets, grammars, hlinters, hbefore, hgrammars, hadrift⟩ :=
          FileTree.targetsOf_stops_iff.mp ⟨htargets, hnot⟩
        exact .workDir hload hlinters hbefore hgrammars hadrift
      · next targets htargets =>
        split at h
        · next e hhome =>
          obtain rfl := Resolution.stopped.inj h
          exact .cacheDir hload htargets hhome
        · exact nomatch h
  · intro h
    cases x with
    | status | usageError => cases h
    | loadStopped e =>
      obtain ⟨hload, hconfig⟩ := (loadConfig_stops_iff around).mpr h
      rw [hload]
      cases e with
      | config => exact absurd trivial hconfig
      | _ => rfl
    | runStopped e =>
      cases h with
      | workDir loaded linters fit formats adrift =>
        obtain ⟨htargets, hconfig⟩ := FileTree.targetsOf_stops_iff.mpr
          ⟨_, _, _, _, _, linters, fit, formats, adrift⟩
        simp only [loaded, FileTree.targets, htargets]
        cases e with
        | config => exact absurd trivial hconfig
        | _ => rfl
      | cacheDir loaded fit home => simp only [loaded, fit, home]

end Resolving

/-! ### What the program does about it -/

section Ending

variable {around : Surroundings σ} {options : Options} {t : FileTree}

/-- A run of a configuration that is not prepared has the failure as its result. -/
theorem exitStatus_of_prepare (setup : RunSetup σ) (options : RunOptions) {c : Config}
    {e : RunFailure} (h : t.prepare setup.digest setup.homes (options.jobCount c) c = .error e)
    (state : σ) :
    (t.run setup options c state).exitStatus = .error e := by
  unfold RunResult.exitStatus FileTree.run
  rw [h]
  rfl

theorem prepare_of_targets {digest : Digest} {homes : Homes} {c : Config} {e : RunFailure}
    (h : t.targets digest homes c = .error e) (jobCount : Int) :
    t.prepare digest homes jobCount c = .error e := by
  unfold FileTree.prepare
  rw [h]
  rfl

theorem prepare_of_cachePath {digest : Digest} {homes : Homes} {c : Config} {targets : List Target}
    {e : HomeError} (h : t.targets digest homes c = .ok targets)
    (hhome : c.cachePath homes = .error e) (jobCount : Int) :
    t.prepare digest homes jobCount c = .error (.home e) := by
  unfold FileTree.prepare
  rw [h, hhome]
  rfl

theorem lint_of_loaded (around : Surroundings σ) {c : Config}
    (hstart : t.ask FileTree.isDir (options.start t) = .ok true)
    (h : (loadConfig t (options.start t) options).2 = .ok c) (state : σ) :
    ∃ events, lint around options t state = runConfig around options events c t state := by
  unfold Options.start at hstart h
  unfold lint
  simp only [hstart, h]
  exact ⟨_, rfl⟩

/-- An error of the configuration is told, and the exit status is the one for it. -/
theorem lint_of_refused {e : ConfigError}
    (hstart : t.ask FileTree.isDir (options.start t) = .ok true)
    (h : resolve around options t = .refused e) (state : σ) :
    (lint around options t state).exit = .status fatalStatus ∧
      (lint around options t state).stdout = "" ∧
      ∃ notices, (lint around options t state).stderr =
        notices ++ Notice.failureText false e.message := by
  unfold resolve at h
  split at h
  · next e' hload =>
    obtain rfl := Resolution.refused.inj h
    unfold Options.start at hstart hload
    unfold lint
    simp only [hstart, hload]
    exact ⟨rfl, rfl, _, rfl⟩
  · exact nomatch h
  · next c hload =>
    obtain ⟨events, hlint⟩ := lint_of_loaded around hstart hload state
    rw [hlint]
    split at h
    · next e' htargets =>
      obtain rfl := Resolution.refused.inj h
      have hstatus := fun options => exitStatus_of_prepare around.setup options
        (prepare_of_targets htargets _) state
      unfold runConfig
      simp only [hstatus]
      exact ⟨rfl, rfl, _, rfl⟩
    · exact nomatch h
    · split at h <;> exact nomatch h

/-- What stops resolving the configuration ends the program. -/
theorem lint_of_stopped {x : Exit} (hstart : t.ask FileTree.isDir (options.start t) = .ok true)
    (h : resolve around options t = .stopped x) (state : σ) :
    (lint around options t state).exit = x := by
  unfold resolve at h
  split at h
  · cases h
  · next e hconfig hload =>
    obtain rfl := Resolution.stopped.inj h
    unfold Options.start at hstart hload
    unfold lint
    simp only [hstart, hload]
  · next c hload =>
    obtain ⟨events, hlint⟩ := lint_of_loaded around hstart hload state
    rw [hlint]
    split at h
    · cases h
    · next e hconfig htargets =>
      obtain rfl := Resolution.stopped.inj h
      have hstatus := fun options => exitStatus_of_prepare around.setup options
        (prepare_of_targets htargets _) state
      unfold runConfig
      simp only [hstatus]
    · next targets htargets =>
      split at h
      · next e hhome =>
        obtain rfl := Resolution.stopped.inj h
        have hstatus := fun options => exitStatus_of_prepare around.setup options
          (prepare_of_cachePath htargets hhome _) state
        unfold runConfig
        simp only [hstatus]
      · cases h

theorem lint_of_resolved {c : Config} {targets : List Target} {cacheDir : Path}
    (hstart : t.ask FileTree.isDir (options.start t) = .ok true)
    (h : resolve around options t = .resolved c targets cacheDir) (state : σ) :
    ∃ events, lint around options t state = runConfig around options events c t state := by
  unfold resolve at h
  split at h
  · exact nomatch h
  · exact nomatch h
  · next c' hload =>
    split at h
    · exact nomatch h
    · exact nomatch h
    · split at h
      · exact nomatch h
      · obtain ⟨rfl, -, -⟩ := Resolution.resolved.inj h
        exact lint_of_loaded around hstart hload state

end Ending

variable (around : Surroundings σ) (options : Options) (t : FileTree) (state : σ)

/-- What is wrong with a configuration is told as an error of the configuration, with the exit
status for it, unless it is one of the listed troubles. Each of these ends the program at once.
Without either, the linters are run. -/
theorem resolution_exact (hstart : t.ask FileTree.isDir (options.start t) = .ok true) :
    (∀ x, resolve around options t = .stopped x ↔ Trouble around options t x) ∧
      (∀ x, resolve around options t = .stopped x → (lint around options t state).exit = x) ∧
      (∀ e, resolve around options t = .refused e →
        (lint around options t state).exit = .status 2 ∧
          (lint around options t state).stdout = "" ∧
          ∃ notices, (lint around options t state).stderr =
            notices ++ Notice.failureText false e.message) ∧
      ∀ c targets cacheDir, resolve around options t = .resolved c targets cacheDir →
        ∃ events, lint around options t state = runConfig around options events c t state :=
  ⟨fun _ => resolve_stops_iff, fun _ h => lint_of_stopped hstart h state,
    fun _ h => lint_of_refused hstart h state, fun _ _ _ h => lint_of_resolved hstart h state⟩

end LinterSuite.CommandLine

namespace LinterSuite

/-! ### Two documents -/

namespace Sample

/-- A command line without words. -/
def bare : CommandLine.Options :=
  { format := .raw, workDir := none, config := none, linters := [], jobs := none, noCache := false
    color := none, debug := false }

/-- Surroundings in which every command passes. -/
def surroundings : CommandLine.Surroundings Unit := { setup, usualJobs := 1, terminal := false }

/-- A tree with a configuration of these bytes at its root. -/
def treeWithConfig (bytes : List UInt8) : FileTree :=
  { root := .dir 0 [(configFileName, .file { content := bytes, mtime := 1, executable := false })]
    cwd := [], clock := 2 }

end Sample

namespace CommandLine

open Sample

/-- A configuration that is text but no TOML: the character for equality alone. -/
theorem resolution_exact_unparsable :
    (lint surroundings bare (treeWithConfig [0x3d]) ()).exit = .status 2 := by
  have hload : (loadConfig (treeWithConfig [0x3d]) (bare.start (treeWithConfig [0x3d])) bare).2 =
      .error (.config (.unparsable ⟨.root, [configFileName]⟩ "not a TOML document")) := by
    rw [loadConfig_snd]
    cbv
  obtain ⟨-, -, hrefused, -⟩ :=
    resolution_exact surroundings bare (treeWithConfig [0x3d]) () (by cbv)
  refine (hrefused (.unparsable ⟨.root, [configFileName]⟩ "not a TOML document") ?_).1
  unfold resolve
  rw [hload]

/-- A configuration of a single byte that is no text. The program ends at once, without a word and
without an exit status of its own. -/
theorem lint_stopped_by_byte :
    (lint surroundings bare (treeWithConfig [0xff]) ()).exit = .loadStopped .notText := by
  have hload : (loadConfig (treeWithConfig [0xff]) (bare.start (treeWithConfig [0xff])) bare).2 =
      .error .notText := by
    rw [loadConfig_snd]
    cbv
  refine lint_of_stopped (by cbv) ?_ ()
  unfold resolve
  rw [hload]

end CommandLine

end LinterSuite
