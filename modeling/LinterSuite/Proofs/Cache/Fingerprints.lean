import LinterSuite.Config
import LinterSuite.Proofs.Cache.Streams
import LinterSuite.Proofs.FileTree.RealPath
import LinterSuite.Proofs.Run.Samples
import Mathlib.Data.Set.Function

/-!
# What fingerprints tell apart

The stream of a fingerprint has the command, the options, a pair of colons, the formats, another
pair, and what follows. Null bytes close its fields, and a field with null characters may as well be
several. Where there are none, the stream says what the fields are, but not which of several pairs
of colons is the one behind the options. So settings have one fingerprint exactly if some of the
formats of one, with the pair in front of them, are the last options of the other; this cannot be if
no option is a pair of colons.

## Main definitions

* `nullPieces`: the parts of a text between null characters
* `LinterSettings.argumentFields`: what a fingerprint takes in of a command, options and formats
* `LinterSettings.Shifts`: formats that are options of other settings
* `FileTree.NullFree`: a tree in which no name has a null character

## Main results

* `fieldStream_eq_iff`: what the stream of any fields tells apart
* `Spot.forall_mem_resolve`: the names of an absolute path
* `LinterSettings.fingerprintStream_eq_iff`: what the stream of a fingerprint tells apart
* `LinterSettings.argumentFields_eq_iff`: what is told apart of options and formats
* `FileTree.fingerprint_exact`: when two fingerprints are the same
* `FileTree.fingerprint_confused`: settings of two configurations with the same fingerprint
-/

namespace LinterSuite

/-! ### Fields with null characters -/

/-- The parts of a text between null characters. -/
def nullPieces (s : String) : List String := (Text.pieces '\x00' s.toList).map String.ofList

theorem not_mem_of_mem_nullPieces {s piece : String} (h : piece ∈ nullPieces s) :
    '\x00' ∉ piece.toList := by
  obtain ⟨cs, hcs, rfl⟩ := List.mem_map.mp h
  rw [String.toList_ofList]
  exact Text.not_mem_of_mem_pieces hcs

theorem nullPieces_of_not_mem {s : String} (h : '\x00' ∉ s.toList) : nullPieces s = [s] := by
  rw [nullPieces, Text.pieces_of_not_mem h, List.map_singleton, String.ofList_toList]

/-- Fields without null characters are their own parts. -/
theorem flatMap_nullPieces {fields : List String} (h : ∀ f ∈ fields, '\x00' ∉ f.toList) :
    fields.flatMap nullPieces = fields := by
  rw [List.flatMap_congr fun f hf => nullPieces_of_not_mem (h f hf)]
  simp

/-- A field may as well be its parts between null characters. -/
theorem fieldStream_nullPieces (s : String) :
    fieldStream (nullPieces s) = closedField (Text.utf8 s) := by
  have hnull : String.utf8EncodeChar '\x00' = [0] := rfl
  have hparts : ∀ parts : List (List Char), parts ≠ [] →
      fieldStream (parts.map String.ofList) =
        closedField (Text.utf8 (String.ofList (['\x00'].intercalate parts))) := by
    intro parts hne
    -- By induction on the parts: the null byte that closes one stands for the character behind it.
    induction parts with
    | nil => exact absurd rfl hne
    | cons first parts ih =>
      cases parts with
      | nil => simp [fieldStream]
      | cons second parts =>
        have hrest := ih (by simp)
        rw [List.map_cons, fieldStream, List.flatMap_cons, ← fieldStream, hrest,
          List.intercalate_cons_cons, List.append_assoc, String.ofList_append, Text.utf8_append,
          List.singleton_append, String.ofList_cons, Text.utf8_append]
        simp [closedField, Text.utf8, hnull]
  rw [nullPieces, hparts _ (Text.pieces_ne_nil _ _), Text.intercalate_pieces, String.ofList_toList]

/-- Streams are the same exactly if the fields have the same parts between null characters. -/
theorem fieldStream_eq_iff {xs ys : List String} :
    fieldStream xs = fieldStream ys ↔ xs.flatMap nullPieces = ys.flatMap nullPieces := by
  have hparts : ∀ fields : List String,
      fieldStream (fields.flatMap nullPieces) = fieldStream fields := by
    intro fields
    rw [fieldStream, List.flatMap_assoc]
    exact List.flatMap_congr fun f _ => fieldStream_nullPieces f
  have hplain : ∀ fields : List String, ∀ piece ∈ fields.flatMap nullPieces,
      '\x00' ∉ piece.toList := by
    intro fields piece hpiece
    obtain ⟨f, -, hpiece⟩ := List.mem_flatMap.mp hpiece
    exact not_mem_of_mem_nullPieces hpiece
  constructor
  · intro h
    refine fieldStream_inj (hplain xs) (hplain ys) ?_
    rw [hparts, hparts, h]
  · intro h
    rw [← hparts xs, ← hparts ys, h]

/-! ### Names of absolute paths -/

namespace Spot

variable {files : Node} {cwd : List String} {P : String → Prop}

/-- Where a way ends, at its end or before. -/
def reached : Except Spot Spot → Spot
  | .ok s => s
  | .error s => s

theorem forall_mem_up {s : Spot} (h : ∀ name ∈ s.names, P name) : ∀ name ∈ s.up.names, P name := by
  unfold up
  split
  · exact fun name hname => absurd hname List.not_mem_nil
  · exact fun name hname => h name (List.dropLast_subset _ hname)

theorem forall_mem_behind {s : Spot} {pieces : List String} (h : ∀ name ∈ s.names, P name)
    (hpieces : ∀ piece ∈ pieces, P piece) : ∀ name ∈ (s.behind pieces).names, P name := by
  unfold behind
  split
  · exact hpieces
  · exact List.forall_mem_append.mpr ⟨h, hpieces⟩

theorem forall_mem_startOf {s : Spot} {text : String} (h : ∀ name ∈ s.names, P name) :
    ∀ name ∈ (s.startOf text).names, P name := by
  unfold startOf
  split
  · exact fun name hname => absurd hname List.not_mem_nil
  · exact h

/-- The names of the place where a way ends are among those that it starts with, its own, and those
of the links that are there. -/
theorem forall_mem_resolve (hlinks : ∀ place text, files.get? place = some (.link text) →
      ∀ piece ∈ piecesOf text, P piece) {links : Nat} {followed : List Spot} {s : Spot}
    {pieces : List String} (hs : ∀ name ∈ s.names, P name) (hpieces : ∀ piece ∈ pieces, P piece) :
    ∀ name ∈ (reached (resolve files cwd links followed s pieces)).names, P name := by
  have hchild : ∀ {s : Spot} {name : String}, (∀ name ∈ s.names, P name) → P name →
      ∀ name' ∈ (s.child name).names, P name' := by
    intro s name hs hname
    exact List.forall_mem_append.mpr ⟨hs, List.forall_mem_singleton.mpr hname⟩
  -- By induction on the way, as it is followed: a link leads another way first.
  fun_induction resolve files cwd links followed s pieces with
  | case1 => exact hs
  | case2 links followed s name rest _ ih => exact ih hs (List.forall_mem_cons.mp hpieces).2
  | case3 links followed s rest _ ih =>
    exact ih (forall_mem_up hs) (List.forall_mem_cons.mp hpieces).2
  | case4 followed s name rest =>
    obtain ⟨hname, hrest⟩ := List.forall_mem_cons.mp hpieces
    exact forall_mem_behind (hchild hs hname) hrest
  | case5 followed s name rest =>
    obtain ⟨hname, hrest⟩ := List.forall_mem_cons.mp hpieces
    exact forall_mem_behind (hchild hs hname) hrest
  | case6 followed s name rest _ _ text hlink links _ left hleft ih =>
    obtain ⟨hname, hrest⟩ := List.forall_mem_cons.mp hpieces
    rw [hleft] at ih
    exact forall_mem_behind (ih (forall_mem_startOf hs) (hlinks _ _ hlink)) hrest
  | case7 followed s name rest _ _ text hlink links _ there hthere ihinside ih =>
    obtain ⟨hname, hrest⟩ := List.forall_mem_cons.mp hpieces
    rw [hthere] at ihinside
    exact ih (ihinside (forall_mem_startOf hs) (hlinks _ _ hlink)) hrest
  | case8 links followed s name rest _ _ _ ih =>
    obtain ⟨hname, hrest⟩ := List.forall_mem_cons.mp hpieces
    exact ih (hchild hs hname) hrest

theorem forall_mem_place (hcwd : ∀ name ∈ cwd, P name) {s : Spot} (hs : ∀ name ∈ s.names, P name) :
    ∀ name ∈ s.place cwd, P name := by
  unfold place
  split
  · exact hs
  · exact List.forall_mem_append.mpr ⟨fun name hname => hcwd name (List.mem_of_mem_take hname), hs⟩

theorem forall_mem_folded (hcwd : ∀ name ∈ cwd, P name) {s : Spot} (hs : ∀ name ∈ s.names, P name) :
    ∀ name ∈ s.folded cwd, P name := by
  unfold folded
  extract_lets start
  have hstart : ∀ name ∈ start, P name := by
    simp only [start]
    split
    · exact fun name hname => absurd hname List.not_mem_nil
    · exact fun name hname => hcwd name (List.mem_of_mem_take hname)
  clear_value start
  generalize s.names = names at hs ⊢
  -- Each name is passed over, takes the last one with it, or is put behind.
  induction names generalizing start with
  | nil => exact hstart
  | cons name names ih =>
    obtain ⟨hname, hnames⟩ := List.forall_mem_cons.mp hs
    refine ih _ ?_ hnames
    dsimp only
    split_ifs
    · exact hstart
    · exact fun name hname => hstart name (List.dropLast_subset _ hname)
    · exact List.forall_mem_append.mpr ⟨hstart, List.forall_mem_singleton.mpr hname⟩

end Spot

namespace FileTree

/-- A tree in which neither the way to the current directory nor a link has a null character. -/
structure NullFree (t : FileTree) : Prop where
  cwd : ∀ name ∈ t.cwd, '\x00' ∉ name.toList
  links : ∀ place text, t.root.get? place = some (.link text) → '\x00' ∉ text.toList

/-- No absolute path has a null character. -/
theorem hasNull_of_realPath {t : FileTree} (h : t.NullFree) {w p : Path}
    (hp : t.realPath w = .ok p) : p.hasNull = false := by
  unfold realPath at hp
  cases hnull : w.hasNull with
  | true =>
    rw [hnull] at hp
    cases hp
  | false =>
    have hparts : ∀ part ∈ w.parts, '\x00' ∉ part.toList := by
      simpa [Path.hasNull] using hnull
    have hlinks : ∀ place text, t.root.get? place = some (.link text) →
        ∀ piece ∈ Spot.piecesOf text, '\x00' ∉ piece.toList := by
      intro place text hlink piece hpiece hmem
      obtain ⟨cs, hcs, rfl⟩ := List.mem_map.mp hpiece
      rw [String.toList_ofList] at hmem
      exact h.links place text hlink (Text.mem_of_mem_pieces hcs hmem)
    have hstart : ∀ name ∈ (if w.isAbsolute then Spot.root else Spot.here).names,
        '\x00' ∉ name.toList := by
      split <;> exact fun name hname => absurd hname List.not_mem_nil
    -- Names come from the path itself or from links on the way.
    have hreached : ∀ name ∈ (Spot.reached (Spot.resolve t.root t.cwd t.linkNames []
        (if w.isAbsolute then .root else .here) w.parts)).names, '\x00' ∉ name.toList :=
      Spot.forall_mem_resolve hlinks hstart hparts
    have hplain : ∀ names : List String, (∀ name ∈ names, '\x00' ∉ name.toList) →
        Path.hasNull ⟨.root, names⟩ = false := by
      intro names hnames
      simpa [Path.hasNull] using hnames
    rw [hnull] at hp
    dsimp only at hp
    split at hp
    · next s hs =>
      rw [hs] at hreached
      obtain rfl := Except.ok.inj hp
      exact hplain _ (Spot.forall_mem_place h.cwd hreached)
    · next left hleft =>
      rw [hleft] at hreached
      split at hp
      · cases hp
      · obtain rfl := Except.ok.inj hp
        exact hplain _ (Spot.forall_mem_folded h.cwd hreached)

end FileTree

/-! ### Settings -/

namespace LinterSettings

variable {s s' : LinterSettings} {p p' : Path}

/-- What a fingerprint takes in of a command, its options and the formats of its output. -/
def argumentFields (s : LinterSettings) : List String :=
  s.command :: (s.options ++ "::" :: s.formats)

/-- Settings without null characters in what a fingerprint takes in. -/
structure NullFree (s : LinterSettings) : Prop where
  command : '\x00' ∉ s.command.toList
  options : ∀ o ∈ s.options, '\x00' ∉ o.toList
  formats : ∀ f ∈ s.formats, '\x00' ∉ f.toList

/-- Some of the first formats, with the pair of colons in front of them, are the last options of
other settings. -/
def Shifts (s s' : LinterSettings) : Prop :=
  ∃ moved, s'.options = s.options ++ "::" :: moved ∧ s.formats = moved ++ "::" :: s'.formats

theorem NullFree.argumentFields (h : s.NullFree) : ∀ f ∈ s.argumentFields, '\x00' ∉ f.toList := by
  rw [LinterSettings.argumentFields, List.forall_mem_cons, List.forall_mem_append,
    List.forall_mem_cons]
  exact ⟨h.command, h.options, by decide, h.formats⟩

/-- The stream of a fingerprint tells apart what is between null characters, the directory, and the
two switches. -/
theorem fingerprintStream_eq_iff (hp : p.hasNull = false) (hp' : p'.hasNull = false) :
    s.fingerprintStream p = s'.fingerprintStream p' ↔
      s.argumentFields.flatMap nullPieces = s'.argumentFields.flatMap nullPieces ∧
      p.toString = p'.toString ∧ s.singleFile = s'.singleFile ∧ s.checkHash = s'.checkHash := by
  have hflag : ∀ b b' : Bool, flagText b = flagText b' ↔ b = b' := by decide
  have hfields : ∀ (s : LinterSettings) (p : Path), p.hasNull = false →
      (s.fingerprintFields p).flatMap nullPieces = s.argumentFields.flatMap nullPieces ++
        ["::", p.toString, flagText s.singleFile, flagText s.checkHash] := by
    intro s p hp
    have hsplit : s.fingerprintFields p = s.argumentFields ++
        ["::", p.toString, flagText s.singleFile, flagText s.checkHash] := by
      simp [fingerprintFields, LinterSettings.argumentFields]
    have hlast : ∀ b : Bool, '\x00' ∉ (flagText b).toList := by decide
    have hplain : ∀ f ∈ ["::", p.toString, flagText s.singleFile, flagText s.checkHash],
        '\x00' ∉ f.toList := by
      simp only [List.forall_mem_cons]
      exact ⟨by decide, Path.not_mem_toString_of_hasNull hp, hlast _, hlast _,
        List.forall_mem_nil _⟩
    rw [hsplit, List.flatMap_append, flatMap_nullPieces hplain]
  rw [fingerprintStream, fingerprintStream, fieldStream_eq_iff, hfields s p hp, hfields s' p' hp']
  constructor
  · intro h
    -- Both end in four fields without null characters, so they are split at the same place.
    obtain ⟨harguments, hrest⟩ := List.append_inj' h rfl
    simp only [List.cons.injEq, true_and, and_true, hflag] at hrest
    exact ⟨harguments, hrest⟩
  · rintro ⟨harguments, hdir, hsingle, hcheck⟩
    rw [harguments, hdir, hsingle, hcheck]

/-- Options and formats are told apart, but for formats that are options of the other. -/
theorem argumentFields_eq_iff :
    s.argumentFields = s'.argumentFields ↔ s.command = s'.command ∧
      ((s.options = s'.options ∧ s.formats = s'.formats) ∨ s.Shifts s' ∨ s'.Shifts s) := by
  rw [LinterSettings.argumentFields, LinterSettings.argumentFields, List.cons.injEq]
  refine and_congr_right fun _ => ?_
  -- One list of options is the first part of the other, and the colons behind it tell the rest.
  rw [List.append_eq_append_iff]
  constructor
  · rintro (⟨moved, hoptions, hrest⟩ | ⟨moved, hoptions, hrest⟩)
    · cases moved with
      | nil => exact .inl ⟨by simpa using hoptions.symm, by simpa using hrest⟩
      | cons colons moved =>
        obtain ⟨rfl, hformats⟩ := List.cons.inj hrest
        exact .inr (.inl ⟨moved, hoptions, hformats⟩)
    · cases moved with
      | nil => exact .inl ⟨by simpa using hoptions, by simpa using hrest.symm⟩
      | cons colons moved =>
        obtain ⟨rfl, hformats⟩ := List.cons.inj hrest
        exact .inr (.inr ⟨moved, hoptions, hformats⟩)
  · rintro (⟨hoptions, hformats⟩ | ⟨moved, hoptions, hformats⟩ | ⟨moved, hoptions, hformats⟩)
    · exact .inl ⟨[], by simp [hoptions], by simp [hformats]⟩
    · exact .inl ⟨"::" :: moved, hoptions, by simp [hformats]⟩
    · exact .inr ⟨"::" :: moved, hoptions, by simp [hformats]⟩

/-- Without a pair of colons among the options they are told apart. -/
theorem eq_of_argumentFields (hs : "::" ∉ s.options) (hs' : "::" ∉ s'.options)
    (h : s.argumentFields = s'.argumentFields) :
    s.command = s'.command ∧ s.options = s'.options ∧ s.formats = s'.formats := by
  obtain ⟨hcommand, hsame | ⟨moved, hoptions, -⟩ | ⟨moved, hoptions, -⟩⟩ :=
    argumentFields_eq_iff.mp h
  · exact ⟨hcommand, hsame⟩
  · exact absurd (by simp [hoptions]) hs'
  · exact absurd (by simp [hoptions]) hs

end LinterSettings

/-! ### Fingerprints -/

namespace FileTree

variable {digest : Digest} {t t' : FileTree} {s s' : LinterSettings} {w w' p p' : Path}

/-- A path that leads somewhere has a fingerprint. -/
theorem fingerprint_of_realPath (hp : t.realPath w = .ok p) :
    t.fingerprint digest s w = .ok (digest (s.fingerprintStream p)) := by
  rw [fingerprint, hp]
  rfl

/-- When two fingerprints are the same, provided that the digest tells their streams apart. Without
null characters in the settings they are the same exactly if the settings agree in all that is taken
in, or in all but formats of one that are options of the other. -/
theorem fingerprint_exact (ht : t.NullFree) (ht' : t'.NullFree) (hp : t.realPath w = .ok p)
    (hp' : t'.realPath w' = .ok p')
    (hdigest : Set.InjOn digest {s.fingerprintStream p, s'.fingerprintStream p'}) :
    let same := t.fingerprint digest s w = t'.fingerprint digest s' w'
    let alike :=
      p.toString = p'.toString ∧ s.singleFile = s'.singleFile ∧ s.checkHash = s'.checkHash
    (same ↔ s.argumentFields.flatMap nullPieces = s'.argumentFields.flatMap nullPieces ∧ alike) ∧
    (s.NullFree → s'.NullFree → (same ↔ (s.command = s'.command ∧
      ((s.options = s'.options ∧ s.formats = s'.formats) ∨ s.Shifts s' ∨ s'.Shifts s)) ∧ alike)) ∧
    (s.NullFree → s'.NullFree → "::" ∉ s.options → "::" ∉ s'.options → same →
      (s.command = s'.command ∧ s.options = s'.options ∧ s.formats = s'.formats) ∧ alike) := by
  intro same alike
  have hsame : same ↔
      s.argumentFields.flatMap nullPieces = s'.argumentFields.flatMap nullPieces ∧ alike := by
    have hstreams : same ↔ s.fingerprintStream p = s'.fingerprintStream p' := by
      simp only [same]
      rw [fingerprint_of_realPath hp, fingerprint_of_realPath hp', Except.ok.injEq]
      exact hdigest.eq_iff (Set.mem_insert _ _) (Set.mem_insert_of_mem _ rfl)
    rw [hstreams]
    exact LinterSettings.fingerprintStream_eq_iff (hasNull_of_realPath ht hp)
      (hasNull_of_realPath ht' hp')
  have hplain : s.NullFree → s'.NullFree →
      (same ↔ s.argumentFields = s'.argumentFields ∧ alike) := by
    intro hs hs'
    rw [hsame, flatMap_nullPieces hs.argumentFields, flatMap_nullPieces hs'.argumentFields]
  refine ⟨hsame, fun hs hs' => ?_, fun hs hs' hcolons hcolons' h => ?_⟩
  · rw [hplain hs hs', LinterSettings.argumentFields_eq_iff]
  · obtain ⟨hfields, halike⟩ := (hplain hs hs').mp h
    exact ⟨LinterSettings.eq_of_argumentFields hcolons hcolons' hfields, halike⟩

/-- Linters with one option each, which are told apart by a digest of the options. -/
theorem fingerprint_exact_options :
    let s := fun option => { Sample.linter "a" "a" with options := [option] }
    let digest : Digest := fun bytes => if 120 ∈ bytes then "x" else "y"
    Sample.tree.fingerprint digest (s "x") ⟨.relative, []⟩ ≠
      Sample.tree.fingerprint digest (s "y") ⟨.relative, []⟩ := by
  intro s digest
  have hfree : Sample.tree.NullFree := by
    refine ⟨fun name hname => absurd hname List.not_mem_nil, fun place text hlink => ?_⟩
    cases place with
    | nil => cases hlink
    | cons first rest =>
      rw [Sample.tree, Node.get?_dir_cons] at hlink
      obtain ⟨n, hn, hrest⟩ := Option.bind_eq_some_iff.mp hlink
      simp only [List.lookup_cons, List.lookup_nil] at hn
      split at hn
      · obtain rfl := Option.some.inj hn
        cases rest <;> cases hrest
      · cases hn
  have hp : Sample.tree.realPath ⟨.relative, []⟩ = .ok ⟨.root, []⟩ := by cbv
  have hplain : ∀ option, '\x00' ∉ option.toList → (s option).NullFree := by
    intro option hoption
    have hcommand : '\x00' ∉ ("a" : String).toList := by decide
    exact ⟨hcommand, List.forall_mem_singleton.mpr hoption, fun f hf => absurd hf List.not_mem_nil⟩
  have hdigest : Set.InjOn digest
      {(s "x").fingerprintStream ⟨.root, []⟩, (s "y").fingerprintStream ⟨.root, []⟩} := by
    have hne : digest ((s "x").fingerprintStream ⟨.root, []⟩) ≠
        digest ((s "y").fingerprintStream ⟨.root, []⟩) := by decide
    rintro _ (rfl | rfl) _ (rfl | rfl) heq
    · rfl
    · exact absurd heq hne
    · exact absurd heq hne.symm
    · rfl
  obtain ⟨-, -, hsufficient⟩ := fingerprint_exact hfree hfree hp hp hdigest
  intro h
  obtain ⟨⟨-, hoptions, -⟩, -⟩ := hsufficient (hplain "x" (by decide)) (hplain "y" (by decide))
    (by decide) (by decide) h
  exact absurd hoptions (by decide)

/-- Two configurations of one linter: a pair of colons is its only option, or its only format. The
fingerprint does not tell. -/
theorem fingerprint_confused :
    let table := fun key => [("linter", Value.table [("a",
      .table [("command", .string "a"), (key, .array [.string "::"])])])]
    ∃ c c' s s', Config.ofTable ⟨.root, []⟩ [] (table "options") = .ok c ∧
      Config.ofTable ⟨.root, []⟩ [] (table "formats") = .ok c' ∧
      c.linters = [s] ∧ c'.linters = [s'] ∧ s.options = ["::"] ∧ s'.options = [] ∧
      s.fingerprintStream ⟨.root, []⟩ = s'.fingerprintStream ⟨.root, []⟩ := by
  refine ⟨_, _, _, _, rfl, rfl, rfl, rfl, rfl, rfl, rfl⟩

end FileTree

end LinterSuite
