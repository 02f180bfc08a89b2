import LinterSuite.Config.Source
import LinterSuite.Execution.Host
import LinterSuite.Proofs.Config.Dumps
import LinterSuite.Proofs.FileTree.RealPath
import LinterSuite.Proofs.Run.Samples
import LinterSuite.Proofs.Run.Targets

/-!
# The executable that is started

A command with a separator in it is a path. Whether it can be run is seen from the current
directory; the process that runs it is started in its working directory, and reads the path from
there. An absolute path is the same file for both. A relative one, which a command becomes in a
working directory that is itself relative, goes through the working directory a second time.

## Main definitions

* `FileTree.Finds`: the file that was seen to be one that can be run
* `FileTree.Launches`: the place of the file that a process runs

## Main results

* `FileTree.executable_eq_ok_iff`: when a command with a separator in it has an executable
* `FileTree.programAt_of_launches`: a process runs what is in the file in that place
* `FileTree.Finds.launches_iff`, `FileTree.Finds.launches_iff_of_relative`: what is run under an
  absolute path, and under a relative one
* `FileTree.executable_exact`: when the file that was found is the one that is started
* `FileTree.isAbsolute_root_of_resolveConfig`, `FileTree.Aims.launches_iff`: it is for all linters
  of a configuration, since they are below an absolute root
-/

namespace LinterSuite.FileTree

variable {t : FileTree} {env : Environment} {workDir p : Path} {command file name : String}
  {place there : List String} {data : FileData}

/-! ### Looking from another directory -/

@[simp] theorem inside_root (t : FileTree) (dir : Path) : (t.inside dir).root = t.root := by
  unfold inside
  split <;> rfl

/-- An absolute path leads to the same place from every directory. -/
theorem locate_inside_of_isAbsolute (h : p.isAbsolute) (dir : Path) (follow : Bool) :
    (t.inside dir).locate follow p = t.locate follow p := by
  unfold locate
  rw [inside_root, if_pos h, if_pos h]

/-- A relative path is followed from the directory that is looked from. -/
theorem locate_inside_eq_ok_iff (hdir : t.locate true workDir = .ok there)
    (hrelative : ¬ p.isAbsolute) {follow : Bool} :
    (t.inside workDir).locate follow p = .ok place ↔ p.hasNull = false ∧
      p.toString.utf8ByteSize ≤ pathLimit ∧
      locateFrom t.root follow linkLimit there p.parts = .ok place := by
  rw [locate_eq_ok_iff, inside_root, if_neg hrelative, inside, hdir]

/-! ### What is found -/

/-- The file that a command is the path of, taken from a working directory. It was seen from the
current directory to be one that can be run. -/
structure Finds (t : FileTree) (env : Environment) (command : String) (workDir p : Path)
    (place : List String) (data : FileData) : Prop where
  expanded : (Path.ofString command).expandHome env.homes = .ok p
  located : t.locate true (workDir.join p) = .ok place
  isFile : t.root.get? place = some (.file data)
  executable : data.executable

theorem pathExists_iff : t.pathExists p ↔ ∃ n, t.stat p = .ok n := by
  unfold pathExists
  cases t.stat p <;> simp [Except.toBool]

theorem exists_locate_of_isDir (h : t.isDir p) : ∃ place, t.locate true p = .ok place := by
  obtain ⟨place, hat⟩ := exists_isDirAt_of_isDir h
  exact ⟨place, locate_eq_ok_iff.mpr ⟨hat.hasNull, hat.short, hat.hasDir.locateFrom_eq⟩⟩

theorem isRunnable_iff : t.isRunnable p ↔ ∃ place data,
    t.locate true p = .ok place ∧ t.root.get? place = some (.file data) ∧ data.executable := by
  -- Permissions are those of the file that the last link leads to.
  have hstat : t.isRunnable p ↔ ∃ data, t.stat p = .ok (.file data) ∧ data.executable := by
    unfold isRunnable
    split
    · next data hstat => simp [hstat]
    · next hother => simpa using fun data hstat => absurd hstat (hother data)
  simp only [hstat, stat, lookup_eq_ok_iff]
  constructor
  · rintro ⟨data, ⟨place, hlocate, hget⟩, hexec⟩
    exact ⟨place, data, hlocate, hget, hexec⟩
  · rintro ⟨place, data, hlocate, hget, hexec⟩
    exact ⟨data, ⟨place, hlocate, hget⟩, hexec⟩

theorem ask_isRunnable_iff : t.ask isRunnable p = .ok true ↔ t.isRunnable p := by
  unfold ask
  split
  · next hstat => simp [isRunnable, hstat]
  · simp

/-- A command with a separator in it has an executable if a file that can be run is found, and this
is the path to that file. -/
theorem executable_eq_ok_iff (hpath : '/' ∈ command.toList) :
    t.executable env command workDir = .ok file ↔
      ∃ p place data, t.Finds env command workDir p place data ∧
        file = (workDir.join p).toString := by
  unfold executable
  rw [if_pos (by simpa using hpath)]
  constructor
  · intro h
    split at h
    · exact nomatch h
    · next p hexpanded =>
      dsimp only at h
      split at h
      · exact nomatch h
      · next hask =>
        obtain ⟨place, data, hlocate, hget, hexec⟩ := isRunnable_iff.mp (ask_isRunnable_iff.mp hask)
        exact ⟨p, place, data, ⟨hexpanded, hlocate, hget, hexec⟩, (Except.ok.inj h).symm⟩
      · exact nomatch h
  · rintro ⟨p, place, data, hfinds, rfl⟩
    have hrunnable : t.ask isRunnable (workDir.join p) = .ok true :=
      ask_isRunnable_iff.mpr
        (isRunnable_iff.mpr ⟨place, data, hfinds.located, hfinds.isFile, hfinds.executable⟩)
    simp [hfinds.expanded, hrunnable]

/-! ### What is started -/

/-- A process of this name, started in a working directory, runs what is in a place. It is the first
that there is where the name is looked for, which is done from the working directory. Only if the
name is looked for elsewhere as well can the process run another file, should this one not start. -/
def Launches (t : FileTree) (env : Environment) (workDir : Path) (name : String)
    (place : List String) : Prop :=
  ∃ file, (programPlaces env name).find?
      (fun p => (t.inside workDir).pathExists (Path.ofString p)) = some file ∧
    (t.inside workDir).locate true (Path.ofString file) = .ok place

theorem programPlaces_of_mem (hname : '/' ∈ name.toList) : programPlaces env name = [name] :=
  if_pos (by simpa using hname)

theorem programOf_of_locate (hlocate : t.locate true p = .ok place)
    (hget : t.root.get? place = some (.file data)) (hexec : data.executable) :
    t.programOf p =
      match Shell.startFault? t data.content with
      | some fault => .error fault
      | none => .ok data.content := by
  have hstat : t.stat p = .ok (.file data) := lookup_eq_ok_iff.mpr ⟨place, hlocate, hget⟩
  cases hfault : Shell.startFault? t data.content <;> simp [programOf, hstat, hexec, hfault]

theorem pathExists_of_programOf {content : List UInt8} (h : t.programOf p = .ok content) :
    t.pathExists p := by
  unfold programOf at h
  split at h
  · exact nomatch h
  · next data hstat => exact pathExists_iff.mpr ⟨_, hstat⟩
  · exact nomatch h

/-- What comes before the first file that is there is passed over. -/
theorem firstProgram_of_find? {names : List String} {content : List UInt8}
    (hfound : names.find? (fun name => t.pathExists (Path.ofString name)) = some file)
    (hprogram : t.programOf (Path.ofString file) = .ok content) :
    t.firstProgram (names.map Path.ofString) = .ok content := by
  induction names with
  | nil => exact nomatch hfound
  | cons first rest ih =>
    by_cases hexists : t.pathExists (Path.ofString first)
    · obtain rfl : first = file := by simpa [hexists] using hfound
      cases rest with
      | nil => exact hprogram
      | cons => simp [firstProgram, hprogram]
    · have hrest : rest.find? (fun name => t.pathExists (Path.ofString name)) = some file := by
        simpa [hexists] using hfound
      have hlater := ih hrest
      cases rest with
      | nil => exact nomatch hrest
      | cons second rest =>
        cases hfirst : t.programOf (Path.ofString first) with
        | ok => exact absurd (pathExists_of_programOf hfirst) hexists
        | error =>
          rw [List.map_cons] at hlater
          simp [firstProgram, hfirst, hlater]

/-- What a process runs is the content of the file in that place. If the file cannot be started, a
process whose name is a path runs nothing. -/
theorem programAt_of_launches (h : t.Launches env workDir name place)
    (hget : t.root.get? place = some (.file data)) (hexec : data.executable)
    (honly : '/' ∈ name.toList ∨ Shell.startFault? (t.inside workDir) data.content = none) :
    (t.inside workDir).programAt env name =
      match Shell.startFault? (t.inside workDir) data.content with
      | some fault => .error fault
      | none => .ok data.content := by
  obtain ⟨file, hfound, hlocate⟩ := h
  have hprogram := programOf_of_locate hlocate (by rwa [inside_root]) hexec
  rcases honly with hname | hstarts
  · rw [programPlaces_of_mem hname] at hfound
    obtain rfl := List.mem_singleton.mp (List.mem_of_find?_eq_some hfound)
    rw [programAt, programPlaces_of_mem hname]
    exact hprogram
  · rw [hstarts] at hprogram ⊢
    exact firstProgram_of_find? hfound hprogram

/-- A path is not looked for anywhere else. -/
theorem launches_iff_of_mem (hname : '/' ∈ name.toList) :
    t.Launches env workDir name place ↔
      (t.inside workDir).locate true (Path.ofString name) = .ok place ∧
        ∃ n, t.root.get? place = some n := by
  unfold Launches
  rw [programPlaces_of_mem hname]
  constructor
  · rintro ⟨file, hfound, hlocate⟩
    -- There is one place to look for it, so that is where it was found.
    obtain rfl := List.mem_singleton.mp (List.mem_of_find?_eq_some hfound)
    have hexists : (t.inside workDir).pathExists (Path.ofString file) := by simpa using hfound
    obtain ⟨n, hstat⟩ := pathExists_iff.mp hexists
    obtain ⟨place', hlocate', hget⟩ := lookup_eq_ok_iff.mp hstat
    obtain rfl := Except.ok.inj (hlocate'.symm.trans hlocate)
    exact ⟨hlocate, n, by rwa [inside_root] at hget⟩
  · rintro ⟨hlocate, n, hget⟩
    have hexists : (t.inside workDir).pathExists (Path.ofString name) :=
      pathExists_iff.mpr ⟨n, lookup_eq_ok_iff.mpr ⟨place, hlocate, by rwa [inside_root]⟩⟩
    exact ⟨name, by simp [hexists], hlocate⟩

namespace Finds

variable (h : t.Finds env command workDir p place data)

include h

/-- The text of the path that was found is read as that path. -/
theorem ofString_toString (hread : workDir.IsRead) :
    Path.ofString (workDir.join p).toString = workDir.join p :=
  Path.ofString_toString (hread.join ((Path.isRead_ofString command).expandHome h.expanded))

/-- Under an absolute path a process runs the file that was found, and no other. -/
theorem launches_iff (hread : workDir.IsRead) (habsolute : (workDir.join p).isAbsolute) :
    t.Launches env workDir (workDir.join p).toString there ↔ there = place := by
  have hpath := h.ofString_toString hread
  have hname : '/' ∈ (workDir.join p).toString.toList :=
    List.mem_of_head? (Path.isAbsolute_ofString_iff.mp (hpath.symm ▸ habsolute))
  rw [launches_iff_of_mem hname, hpath, locate_inside_of_isAbsolute habsolute, h.located]
  constructor
  · rintro ⟨hthere, -⟩
    exact (Except.ok.inj hthere).symm
  · rintro rfl
    exact ⟨rfl, _, h.isFile⟩

/-- Under a relative path it runs what the components of its working directory, and behind them
those of the command, lead to from its working directory. -/
theorem launches_iff_of_relative (hread : workDir.IsRead) {dir : List String}
    (hdir : t.locate true workDir = .ok dir) (hrelative : ¬ (workDir.join p).isAbsolute)
    (hname : '/' ∈ (workDir.join p).toString.toList) :
    t.Launches env workDir (workDir.join p).toString there ↔
      locateFrom t.root true linkLimit dir (workDir.parts ++ p.parts) = .ok there ∧
        ∃ n, t.root.get? there = some n := by
  obtain ⟨hnull, hshort, -⟩ := locate_eq_ok_iff.mp h.located
  have hparts : (workDir.join p).parts = workDir.parts ++ p.parts := by
    have hp : ¬ p.isAbsolute := fun hp => hrelative (Path.isAbsolute_join_iff.mpr (.inr hp))
    simp [Path.join, hp]
  rw [launches_iff_of_mem hname, h.ofString_toString hread,
    locate_inside_eq_ok_iff hdir hrelative, hparts]
  simp [hnull, hshort]

end Finds

/-- A file that is found for a command with a separator in it is a regular one that can be run, and
is returned under an absolute path exactly if the working directory is absolute or the command is,
with a home directory put in. Then a process that is started in the working directory runs that file
and no other. Otherwise it goes through the working directory a second time, or, if no separator is
left, looks for a file on the search path. -/
theorem executable_exact (hread : workDir.IsRead) (hdir : t.isDir workDir)
    (hpath : '/' ∈ command.toList) (h : t.executable env command workDir = .ok file) :
    ∃ p place data dir, t.Finds env command workDir p place data ∧
      t.locate true workDir = .ok dir ∧
      ((Path.ofString file).isAbsolute ↔ workDir.isAbsolute ∨ p.isAbsolute) ∧
      ((Path.ofString file).isAbsolute →
        ∀ there, t.Launches env workDir file there ↔ there = place) ∧
      (¬ (Path.ofString file).isAbsolute → '/' ∈ file.toList →
        ∀ there, t.Launches env workDir file there ↔
          locateFrom t.root true linkLimit dir (workDir.parts ++ p.parts) = .ok there ∧
            ∃ n, t.root.get? there = some n) := by
  obtain ⟨p, place, data, hfinds, rfl⟩ := (executable_eq_ok_iff hpath).mp h
  obtain ⟨dir, hdir⟩ := exists_locate_of_isDir hdir
  rw [hfinds.ofString_toString hread]
  exact ⟨p, place, data, dir, hfinds, hdir, Path.isAbsolute_join_iff,
    fun habsolute _ => hfinds.launches_iff hread habsolute,
    fun hrelative hname _ => hfinds.launches_iff_of_relative hread hdir hrelative hname⟩

/-- A link in an absolute working directory: the file behind it is started. -/
theorem executable_exact_link :
    let t : FileTree :=
      { root := .dir 0 [("x", .file { content := [], mtime := 1, executable := true }),
          ("w", .dir 0 [("t", .link "/x")])]
        cwd := [], clock := 2 }
    let workDir : Path := Path.ofString "/w"
    t.isDir workDir ∧ '/' ∈ "./t".toList ∧
      t.executable Sample.environment "./t" workDir = .ok "/w/t" ∧
      ∀ there, t.Launches Sample.environment workDir "/w/t" there ↔ there = ["x"] := by
  intro t workDir
  have hdir : t.isDir workDir := by cbv
  have hfound : t.executable Sample.environment "./t" workDir = .ok "/w/t" := by cbv
  obtain ⟨p, place, data, dir, hfinds, -, -, hlaunches, -⟩ :=
    executable_exact (Path.isRead_ofString _) hdir (by decide) hfound
  have hexpanded : (Path.ofString "./t").expandHome Sample.environment.homes =
      .ok (Path.ofString "t") := by cbv
  obtain rfl := Except.ok.inj (hexpanded.symm.trans hfinds.expanded)
  have hlocated : t.locate true (workDir.join (Path.ofString "t")) = .ok ["x"] := by cbv
  obtain rfl := Except.ok.inj (hlocated.symm.trans hfinds.located)
  exact ⟨hdir, by decide, hfound, hlaunches (by decide)⟩

/-- A relative working directory: another file is started than the one that was found. -/
theorem executable_of_relative_workDir :
    let file : Node := .file { content := [], mtime := 1, executable := true }
    let t : FileTree :=
      { root := .dir 0 [("w", .dir 0 [("tool", file), ("w", .dir 0 [("tool", file)])])]
        cwd := [], clock := 2 }
    let workDir : Path := Path.ofString "w"
    t.isDir workDir ∧ '/' ∈ "./tool".toList ∧
      t.executable Sample.environment "./tool" workDir = .ok "w/tool" ∧
      ¬ (Path.ofString "w/tool").isAbsolute ∧
      t.locate true (Path.ofString "w/tool") = .ok ["w", "tool"] ∧
      t.Launches Sample.environment workDir "w/tool" ["w", "w", "tool"] := by
  intro file t workDir
  exact ⟨by cbv, by decide, by cbv, by decide, by cbv, "w/tool", by cbv, by cbv⟩

/-! ### Linters of a run -/

section Linters

variable {digest : Digest} {homes : Homes} {root : Path} {s : LinterSettings} {target : Target}

theorem isAbsolute_of_realPath {p q : Path} (h : t.realPath p = .ok q) : q.isAbsolute := by
  unfold realPath at h
  split at h
  · exact nomatch h
  · split at h
    · obtain rfl := Except.ok.inj h
      rfl
    · dsimp only at h
      split at h
      · exact nomatch h
      · obtain rfl := Except.ok.inj h
        rfl

theorem isAbsolute_of_realPath? {given found : Option Path} (h : t.realPath? given = .ok found) :
    ∀ p ∈ found, p.isAbsolute := by
  cases given with
  | none =>
    obtain rfl := Except.ok.inj h
    simp
  | some p =>
    obtain ⟨q, hq, rfl⟩ := Except.map_eq_ok_iff.mp h
    simpa using isAbsolute_of_realPath hq

/-- Settings are taken from an absolute root, whatever was asked for. -/
theorem isAbsolute_root_of_configPlaces {r : ConfigRequest} {places : ConfigPlaces}
    (h : t.configPlaces r = .ok places) : places.root.isAbsolute := by
  obtain ⟨start, hstart, h⟩ := Except.bind_eq_ok_iff.mp h
  obtain ⟨file, hfile, h⟩ := Except.bind_eq_ok_iff.mp h
  obtain ⟨root, hroot, h⟩ := Except.bind_eq_ok_iff.mp h
  obtain rfl := Except.ok.inj h
  cases root with
  | some root => exact isAbsolute_of_realPath? hroot root rfl
  | none =>
    cases file with
    | some file => exact isAbsolute_of_realPath? hfile file rfl
    | none => exact isAbsolute_of_realPath hstart

theorem root_of_loadConfigs {files : List Path} {c : Config}
    (h : (t.loadConfigs root files).2 = .ok c) : c.root = root := by
  obtain ⟨merged, -, h⟩ := Except.bind_eq_ok_iff.mp h
  exact (Config.ofTable_eq_ok_iff.mp (Except.mapError_eq_ok_iff.mp h)).1

theorem isAbsolute_root_of_resolveConfig {r : ConfigRequest} {c : Config}
    (h : t.resolveConfig r = .ok c) : c.root.isAbsolute := by
  obtain ⟨places, hplaces, h⟩ := Except.bind_eq_ok_iff.mp h
  obtain ⟨files, -, h⟩ := Except.bind_eq_ok_iff.mp h
  rw [root_of_loadConfigs h]
  exact isAbsolute_root_of_configPlaces (Except.mapError_eq_ok_iff.mp hplaces)

/-- A working directory is the root, or what settings name taken from there. -/
theorem exists_join_of_workDirFrom (h : s.workDirFrom homes root = .ok workDir) :
    workDir = root ∨ ∃ q : Path, q.IsRead ∧ workDir = root.join q := by
  unfold LinterSettings.workDirFrom at h
  split at h
  · exact .inl (Except.ok.inj h).symm
  · next dir _ =>
    split at h
    · exact .inl (Except.ok.inj h).symm
    · obtain ⟨q, hq, rfl⟩ := Except.map_eq_ok_iff.mp h
      exact .inr ⟨q, (Path.isRead_ofString dir).expandHome hq, rfl⟩

/-- For a linter below an absolute root, the file that was found is the one that is started. -/
theorem Aims.launches_iff (haims : t.Aims digest homes root s target) (hread : root.IsRead)
    (habsolute : root.isAbsolute) (hpath : '/' ∈ s.command.toList)
    (h : t.executable env s.command target.workDir = .ok file) :
    ∃ p place data, t.Finds env s.command target.workDir p place data ∧
      ∀ there, t.Launches env target.workDir file there ↔ there = place := by
  have hworkDir : target.workDir.IsRead ∧ target.workDir.isAbsolute := by
    -- What is taken from an absolute root is absolute, whatever the settings name.
    rcases exists_join_of_workDirFrom haims.workDir with heq | ⟨q, hq, heq⟩ <;> rw [heq]
    · exact ⟨hread, habsolute⟩
    · exact ⟨hread.join hq, Path.isAbsolute_join_iff.mpr (.inl habsolute)⟩
  obtain ⟨p, place, data, hfinds, rfl⟩ := (executable_eq_ok_iff hpath).mp h
  exact ⟨p, place, data, hfinds, fun _ =>
    hfinds.launches_iff hworkDir.1 (Path.isAbsolute_join_iff.mpr (.inl hworkDir.2))⟩

end Linters

end LinterSuite.FileTree
