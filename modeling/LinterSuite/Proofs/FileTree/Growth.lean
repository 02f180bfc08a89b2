import LinterSuite.Proofs.FileTree.RealPath

/-!
# Growing trees

Directories are made where there was nothing, and files are written where there was nothing or a
file. While a tree grows in this way, directories and links stay where they are, and no link is
added. So every path to a directory still leads there.

## Main definitions

* `Node.Becomes`: what may become of a place while a tree grows
* `FileTree.Grows`: a tree that grew in certain places only

## Main results

* `Node.becomes_insert`: what becomes of every place when something is put into a directory
* `Node.WellNamed.insert`: a well-named tree stays well-named
* `FileTree.Grows.leadsTo`, `FileTree.Grows.hasDir`: paths to directories lead to the same ones
* `FileTree.Grows.pathExists`: a path that leads to something still does
-/

namespace LinterSuite

/-! ### What may become of a place -/

namespace Node

/-- What may become of a place while a tree grows: nothing but its entries if it is a directory, a
new directory where directories are made, and a new file where files are written. -/
inductive Becomes (made written : Prop) : Option Node → Option Node → Prop
  | same (n : Option Node) : Becomes made written n n
  | dir (mtime mtime' : Int) (es es' : List (String × Node)) :
      Becomes made written (some (.dir mtime es)) (some (.dir mtime' es'))
  | new (h : made) (mtime : Int) (es : List (String × Node)) :
      Becomes made written none (some (.dir mtime es))
  | file (h : written) {n : Option Node} (free : IsFree n) (data : FileData) :
      Becomes made written n (some (.file data))

namespace Becomes

variable {made written made' written' : Prop} {n n' n'' : Option Node}

theorem mono (h : Becomes made written n n') (hmade : made → made')
    (hwritten : written → written') : Becomes made' written' n n' := by
  cases h with
  | same => exact .same _
  | dir => exact .dir ..
  | new h => exact .new (hmade h) ..
  | file h free => exact .file (hwritten h) free _

theorem trans (h : Becomes made written n n') (h' : Becomes made written n' n'') :
    Becomes made written n n'' := by
  cases h with
  | same => exact h'
  | dir =>
    cases h' with
    | same | dir => exact .dir ..
    | file _ free => simp [IsFree] at free
  | new h =>
    cases h' with
    | same | dir => exact .new h ..
    | file _ free => simp [IsFree] at free
  | file h free =>
    cases h' with
    | same => exact .file h free _
    | file => exact .file h free _

theorem isDir (h : Becomes made written n n') {mtime : Int} {es : List (String × Node)}
    (hn : n = some (.dir mtime es)) : ∃ mtime' es', n' = some (.dir mtime' es') := by
  subst hn
  cases h with
  | same => exact ⟨_, _, rfl⟩
  | dir => exact ⟨_, _, rfl⟩
  | file _ free => simp [IsFree] at free

theorem link_iff (h : Becomes made written n n') (text : String) :
    n' = some (.link text) ↔ n = some (.link text) := by
  cases h with
  | same => rfl
  | dir => simp
  | new => simp
  | file _ free => rcases free with rfl | ⟨data, rfl⟩ <;> simp

/-- Where no file is written, files are what they were. -/
theorem file_iff (h : Becomes made written n n') (hwritten : ¬ written) (data : FileData) :
    n' = some (.file data) ↔ n = some (.file data) := by
  cases h with
  | same => rfl
  | dir => simp
  | new => simp
  | file h => exact absurd h hwritten

/-- Nothing is taken away. -/
theorem exists_of_some (h : Becomes made written n n') {m : Node} (hn : n = some m) :
    ∃ m', n' = some m' ∧ m'.shape = m.shape := by
  subst hn
  cases h with
  | same => exact ⟨m, rfl, rfl⟩
  | dir => exact ⟨_, rfl, rfl⟩
  | file _ free =>
    obtain ⟨data, hdata⟩ := free.resolve_left nofun
    obtain rfl := Option.some.inj hdata
    exact ⟨_, rfl, rfl⟩

/-- Directories are made only where there was nothing and there is something afterwards. -/
theorem narrow (h : Becomes made written n n') : Becomes (n = none ∧ n'.isSome) written n n' := by
  cases h with
  | same => exact .same _
  | dir => exact .dir ..
  | new => exact .new ⟨rfl, rfl⟩ ..
  | file h free => exact .file h free _

/-- Where no directory is made, what is free stays so. -/
theorem isFree_iff (h : Becomes made written n n') (hmade : ¬ made) : IsFree n' ↔ IsFree n := by
  cases h with
  | same => rfl
  | dir => simp [IsFree]
  | new h => exact absurd h hmade
  | file _ free => exact iff_of_true (.inr ⟨_, rfl⟩) free

/-- Where nothing is made or written, there is nothing if there was nothing. -/
theorem eq_none (h : Becomes made written none n') (hmade : ¬ made) (hwritten : ¬ written) :
    n' = none := by
  cases h with
  | same => rfl
  | new h => exact absurd h hmade
  | file h => exact absurd h hwritten

end Becomes

/-! ### Putting something into a directory -/

variable {n new : Node} {place : List String} {mtime : Int} {es : List (String × Node)}
  {name : String}

/-- What becomes of every place when something with nothing below it is put into a directory, where
there was nothing or a file. -/
theorem becomes_insert (h : n.get? place = some (.dir mtime es)) (hfree : IsFree (es.lookup name))
    (hleaf : ∀ first rest, new.get? (first :: rest) = none) (time : Int) (names : List String) :
    (names = place ++ [name] ∧ (n.insert time (place ++ [name]) new).get? names = some new) ∨
      (names ≠ place ++ [name] ∧
        Becomes False False (n.get? names) ((n.insert time (place ++ [name]) new).get? names)) := by
  induction place generalizing n names with
  | nil =>
    obtain rfl : n = .dir mtime es := by simpa using h
    cases names with
    | nil => exact .inr ⟨by simp, by simpa [insert] using .dir ..⟩
    | cons first names =>
      rw [List.nil_append, insert, get?_dir_cons, get?_dir_cons]
      by_cases hfirst : first = name
      · subst hfirst
        rw [Keyed.lookup_put_self, Option.bind_some, insert]
        cases names with
        | nil => exact .inl ⟨rfl, get?_nil new⟩
        | cons second names =>
          -- Behind what is new there is nothing, as there was before.
          have hold : (es.lookup first).bind (·.get? (second :: names)) = none := by
            rcases hfree with hnone | ⟨data, hdata⟩
            · rw [hnone]
              rfl
            · rw [hdata]
              rfl
          rw [hold, hleaf]
          exact .inr ⟨by simp, .same _⟩
      · rw [Keyed.lookup_put_of_ne _ hfirst]
        exact .inr ⟨by simp [hfirst], .same _⟩
  | cons second place ih =>
    cases n with
    | file data => simp [get?] at h
    | link target => simp [get?] at h
    | dir mtime' es' =>
      rw [get?_dir_cons, Option.bind_eq_some_iff] at h
      obtain ⟨below, hbelow, h⟩ := h
      cases names with
      | nil => exact .inr ⟨by simp, by simpa [insert] using .dir ..⟩
      | cons first names =>
        rw [List.cons_append, insert, get?_dir_cons, get?_dir_cons]
        by_cases hfirst : first = second
        · subst hfirst
          rw [Keyed.lookup_put_self, hbelow, Option.getD_some, Option.bind_some, Option.bind_some]
          simpa using ih h names
        · rw [Keyed.lookup_put_of_ne _ hfirst]
          exact .inr ⟨by simp [hfirst], .same _⟩

theorem mem_put {α : Type} {entries : List (String × α)} {key : String} {v : α} {e : String × α}
    (h : e ∈ Keyed.put entries key v) : e ∈ entries ∨ e = (key, v) := by
  induction entries with
  | nil => exact .inr (List.mem_singleton.mp h)
  | cons first rest ih =>
    rw [Keyed.put] at h
    split at h
    · next heq =>
      rcases List.mem_cons.mp h with rfl | h
      · exact .inr (by rw [heq])
      · exact .inl (List.mem_cons_of_mem _ h)
    · rcases List.mem_cons.mp h with rfl | h
      · exact .inl List.mem_cons_self
      · exact (ih h).imp_left (List.mem_cons_of_mem _)

theorem nodup_put {α : Type} {entries : List (String × α)} (h : (entries.map (·.1)).Nodup)
    (key : String) (v : α) : ((Keyed.put entries key v).map (·.1)).Nodup := by
  induction entries with
  | nil => simp [Keyed.put]
  | cons first rest ih =>
    obtain ⟨hfirst, hrest⟩ := List.nodup_cons.mp h
    rw [Keyed.put]
    split
    · exact h
    · next hne =>
      refine List.nodup_cons.mpr ⟨fun hmem => ?_, ih hrest⟩
      obtain ⟨e, he, heq⟩ := List.mem_map.mp hmem
      rcases mem_put he with he | rfl
      · exact hfirst (List.mem_map.mpr ⟨e, he, heq⟩)
      · exact hne heq.symm

theorem WellNamed.put (h : (Node.dir mtime es).WellNamed) (hname : IsName name)
    (hnew : new.WellNamed) : (Node.dir mtime (Keyed.put es name new)).WellNamed := by
  cases h with
  | dir distinct names below =>
    refine .dir (nodup_put distinct name new) (fun e he => ?_) fun e he => ?_
    · rcases mem_put he with he | rfl
      · exact names e he
      · exact hname
    · rcases mem_put he with he | rfl
      · exact below e he
      · exact hnew

/-- A well-named tree stays well-named when something is put into a directory. -/
theorem WellNamed.insert (hn : n.WellNamed) (h : n.get? place = some (.dir mtime es))
    (hname : IsName name) (hnew : new.WellNamed) (time : Int) :
    (n.insert time (place ++ [name]) new).WellNamed := by
  induction place generalizing n with
  | nil =>
    obtain rfl : n = .dir mtime es := by simpa using h
    exact hn.put hname hnew
  | cons first place ih =>
    cases n with
    | file data => simp [Node.get?] at h
    | link target => simp [Node.get?] at h
    | dir mtime' es' =>
      rw [get?_dir_cons, Option.bind_eq_some_iff] at h
      obtain ⟨below, hbelow, h⟩ := h
      have hfirst : (Node.dir mtime' es').get? [first] = some below := by
        simp [get?_dir_cons, hbelow]
      rw [List.cons_append, Node.insert, hbelow, Option.getD_some]
      exact hn.put (hn.isName_of_mem hfirst (List.mem_singleton_self first)) (ih (hn.get? hfirst) h)

end Node

/-! ### Trees -/

namespace FileTree

variable {made written made' written' : List String → Prop} {t t' t'' : FileTree}

/-- A tree that grew: directories were made, and files written, in certain places only. -/
structure Grows (made written : List String → Prop) (t t' : FileTree) : Prop where
  cwd : t'.cwd = t.cwd
  wellNamed : t.root.WellNamed → t'.root.WellNamed
  places : ∀ names,
    Node.Becomes (made names) (written names) (t.root.get? names) (t'.root.get? names)

namespace Grows

theorem refl (t : FileTree) : t.Grows made written t := ⟨rfl, id, fun _ => .same _⟩

theorem mono (h : t.Grows made written t') (hmade : ∀ names, made names → made' names)
    (hwritten : ∀ names, written names → written' names) : t.Grows made' written' t' :=
  ⟨h.cwd, h.wellNamed, fun names => (h.places names).mono (hmade names) (hwritten names)⟩

theorem trans (h : t.Grows made written t') (h' : t'.Grows made written t'') :
    t.Grows made written t'' :=
  ⟨h'.cwd.trans h.cwd, h'.wellNamed ∘ h.wellNamed,
    fun names => (h.places names).trans (h'.places names)⟩

/-- Directories are made only where there was nothing and there is something afterwards. -/
theorem narrow (h : t.Grows made written t') :
    t.Grows (fun names => t.root.get? names = none ∧ (t'.root.get? names).isSome) written t' :=
  ⟨h.cwd, h.wellNamed, fun names => (h.places names).narrow⟩

theorem sameLinks (h : t.Grows made written t') : t.SameLinks t' :=
  fun names text => (h.places names).link_iff text

/-- A directory stays one. -/
theorem isDir (h : t.Grows made written t') {place : List String} {mtime : Int}
    {es : List (String × Node)} (hdir : t.root.get? place = some (.dir mtime es)) :
    ∃ mtime' es', t'.root.get? place = some (.dir mtime' es') := (h.places place).isDir hdir

variable {links : Nat} {place components target : List String}

/-- Components that lead to a directory still lead there. -/
theorem leadsTo (h : t.Grows made written t')
    (hleads : LeadsTo t.root links place components target) :
    LeadsTo t'.root links place components target := by
  induction hleads with
  | here dir =>
    obtain ⟨_, _, dir'⟩ := h.isDir dir
    exact .here dir'
  | dot dir _ ih =>
    obtain ⟨_, _, dir'⟩ := h.isDir dir
    exact .dot dir' ih
  | up dir _ ih =>
    obtain ⟨_, _, dir'⟩ := h.isDir dir
    exact .up dir' ih
  | @link _ _ _ _ _ _ name text dir ne_dot ne_dots short entry _ ih =>
    obtain ⟨_, _, dir'⟩ := h.isDir dir
    have entry' := (h.sameLinks _ text).mpr ((Node.get?_concat dir name).trans entry)
    exact .link dir' ne_dot ne_dots short ((Node.get?_concat dir' name).symm.trans entry') ih
  | @down _ _ _ _ _ _ _ _ name dir ne_dot ne_dots short entry _ ih =>
    obtain ⟨_, _, dir'⟩ := h.isDir dir
    exact .down_of_next dir' ne_dot ne_dots short ih

theorem hasDir (h : t.Grows made written t') {dir : Path} (hdir : t.HasDir dir place) :
    t'.HasDir dir place := by
  unfold HasDir
  rw [h.cwd]
  exact h.leadsTo hdir

/-- Components that lead to something still lead there. -/
theorem locateFrom_eq (h : t.Grows made written t') {n : Node}
    (hlocate : locateFrom t.root true links place components = .ok target)
    (hn : t.root.get? target = some n) :
    locateFrom t'.root true links place components = .ok target := by
  fun_induction locateFrom t.root true links place components with
  | case1 links place =>
    obtain rfl := Except.ok.inj hlocate
    exact locateFrom_nil ..
  | case2 links place rest _ _ dir ih =>
    obtain ⟨_, _, dir'⟩ := h.isDir dir
    rw [locateFrom_dot dir']
    exact ih hlocate
  | case3 links place rest _ _ dir _ ih =>
    obtain ⟨_, _, dir'⟩ := h.isDir dir
    rw [locateFrom_up dir']
    exact ih hlocate
  | case5 links place name rest _ es dir _ _ _ entry =>
    obtain rfl := Except.ok.inj hlocate
    -- Nothing is there, whatever may be made there.
    rw [Node.get?_concat dir, entry] at hn
    simp at hn
  | case7 _ _ _ rest _ _ _ _ _ _ _ _ hlast => simp at hlast
  | case9 place name rest _ es dir ne_dot ne_dots short text entry _ links ih =>
    obtain ⟨_, es', dir'⟩ := h.isDir dir
    have entry' := (h.sameLinks _ text).mpr ((Node.get?_concat dir name).trans entry)
    rw [locateFrom_link dir' ne_dot ne_dots (Nat.not_lt.mp short)
      ((Node.get?_concat dir' name).symm.trans entry') (by simp)]
    exact ih hlocate
  | case10 links place name rest _ es dir ne_dot ne_dots short m hlink entry ih =>
    obtain ⟨_, es', dir'⟩ := h.isDir dir
    obtain ⟨m', hm', hshape⟩ :=
      (h.places (place ++ [name])).exists_of_some ((Node.get?_concat dir name).trans entry)
    rw [Node.get?_concat dir'] at hm'
    have hlink' : ∀ text, m' ≠ .link text := by
      rintro text rfl
      cases m with
      | file | dir => cases hshape
      | link text' => exact hlink text' rfl
    rw [locateFrom_down dir' ne_dot ne_dots (Nat.not_lt.mp short) hm' hlink']
    exact ih hlocate
  | case4 | case6 | case8 | case11 | case12 => cases hlocate

/-- Where no file is written, a path that leads to a file still leads to it. -/
theorem stat_file (h : t.Grows made written t') (hwritten : ∀ names, ¬ written names) {p : Path}
    {data : FileData} (hp : t.stat p = .ok (.file data)) : t'.stat p = .ok (.file data) := by
  obtain ⟨target, hlocate, hn⟩ := lookup_eq_ok_iff.mp hp
  obtain ⟨hnull, hshort, hlocate⟩ := locate_eq_ok_iff.mp hlocate
  have hlocate' := h.locateFrom_eq hlocate hn
  have hn' := ((h.places target).file_iff (hwritten target) data).mpr hn
  exact lookup_eq_ok_iff.mpr
    ⟨target, locate_eq_ok_iff.mpr ⟨hnull, hshort, h.cwd ▸ hlocate'⟩, hn'⟩

/-- A path that leads to something still leads to something. -/
theorem pathExists (h : t.Grows made written t') {p : Path} (hp : t.pathExists p) :
    t'.pathExists p := by
  unfold FileTree.pathExists at *
  cases hstat : t.stat p with
  | error e => simp [hstat, Except.toBool] at hp
  | ok n =>
    obtain ⟨target, hlocate, hn⟩ := lookup_eq_ok_iff.mp hstat
    obtain ⟨hnull, hshort, hlocate⟩ := locate_eq_ok_iff.mp hlocate
    obtain ⟨n', hn', -⟩ := (h.places target).exists_of_some hn
    have hlocate' := h.locateFrom_eq hlocate hn
    have hstat' : t'.stat p = .ok n' :=
      lookup_eq_ok_iff.mpr ⟨target, locate_eq_ok_iff.mpr ⟨hnull, hshort, h.cwd ▸ hlocate'⟩, hn'⟩
    simp [hstat', Except.toBool]

end Grows

end FileTree

theorem FileTree.IsDirAt.grows {made written : List String → Prop} {t t' : FileTree} {p : Path}
    {place : List String} (h : t.IsDirAt p place) (hgrows : t.Grows made written t') :
    t'.IsDirAt p place := ⟨hgrows.hasDir h.hasDir, h.hasNull, h.short⟩

/-! ### Places behind a path -/

namespace FileTree

variable {t : FileTree} {root : Node} {links : Nat} {place components target rest : List String}

/-- Components in front of others are followed first. -/
theorem LeadsTo.locateFrom_append (h : LeadsTo root links place components target)
    (rest : List String) : ∃ left, locateFrom root true links place (components ++ rest) =
      locateFrom root true left target rest := by
  induction h with
  | @here links place => exact ⟨links, rfl⟩
  | dot dir _ ih =>
    rw [List.cons_append, locateFrom_dot dir]
    exact ih
  | up dir _ ih =>
    rw [List.cons_append, locateFrom_up dir]
    exact ih
  | link dir ne_dot ne_dots short entry _ ih =>
    rw [List.cons_append, locateFrom_link dir ne_dot ne_dots short entry (by simp),
      ← List.append_assoc]
    exact ih
  | down dir ne_dot ne_dots short entry _ ih =>
    rw [List.cons_append, locateFrom_down dir ne_dot ne_dots short entry (by simp)]
    exact ih

/-- Names of directories are followed as they stand, unless one of them is too long. -/
theorem locateFrom_names {names : List String} (hnames : ∀ name ∈ names, Node.IsName name)
    {mtime : Int} {es : List (String × Node)}
    (hdir : root.get? (place ++ names) = some (.dir mtime es)) (follow : Bool) (links : Nat)
    (rest : List String) : locateFrom root follow links place (names ++ rest) =
      if ∀ name ∈ names, name.utf8ByteSize ≤ nameLimit then
        locateFrom root follow links (place ++ names) rest
      else .error .nameTooLong := by
  induction names generalizing place with
  | nil => simp
  | cons name names ih =>
    obtain ⟨hname, hrest⟩ := List.forall_mem_cons.mp hnames
    obtain ⟨_, _, hplace⟩ := Node.exists_dir_of_get?_append hdir
    have hnext : root.get? (place ++ [name] ++ names) = some (.dir mtime es) := by simpa using hdir
    rw [List.cons_append]
    by_cases hshort : name.utf8ByteSize ≤ nameLimit
    · -- The next name is that of a directory, since there is one below it or in its place.
      obtain ⟨_, _, hbelow⟩ :
          ∃ mtime' es', root.get? (place ++ [name]) = some (.dir mtime' es') := by
        cases names with
        | nil => exact ⟨_, _, by simpa using hnext⟩
        | cons second names => exact Node.exists_dir_of_get?_append hnext
      rw [Node.get?_concat hplace] at hbelow
      rw [locateFrom_down hplace hname.ne_dot hname.ne_dots hshort hbelow (by simp),
        ih hrest hnext, List.append_assoc, List.singleton_append]
      simp only [List.forall_mem_cons, hshort, true_and]
    · have hlong : locateFrom root follow links place (name :: (names ++ rest)) =
          .error .nameTooLong := by
        rw [locateFrom]
        simp only [hplace, if_neg hname.ne_dot, if_neg hname.ne_dots, if_pos (Nat.not_le.mp hshort)]
      rw [hlong, if_neg fun hall => hshort (hall name List.mem_cons_self)]

/-- A last name that is not that of a link is followed as it stands, unless it is too long. -/
theorem locateFrom_last {mtime : Int} {es : List (String × Node)} {name : String}
    (hname : Node.IsName name) (hget : root.get? place = some (.dir mtime es))
    (hlink : ∀ text, es.lookup name ≠ some (.link text)) (follow : Bool) (links : Nat) :
    locateFrom root follow links place [name] =
      if name.utf8ByteSize ≤ nameLimit then .ok (place ++ [name]) else .error .nameTooLong := by
  split
  · next hshort =>
    cases hentry : es.lookup name with
    | none => exact locateFrom_absent hget hname.ne_dot hname.ne_dots hshort hentry ..
    | some n =>
      rw [locateFrom_down hget hname.ne_dot hname.ne_dots hshort hentry
        fun text htext => hlink text (htext ▸ hentry), locateFrom_nil]
  · next hlong =>
    rw [locateFrom]
    simp only [hget, if_neg hname.ne_dot, if_neg hname.ne_dots, if_pos (Nat.not_le.mp hlong)]

/-- What is found behind a path to a directory, down some directories, under a name. -/
theorem stat_names {dir : Path} (hdir : t.HasDir dir place) {names : List String} {name : String}
    (hnames : ∀ other ∈ names, Node.IsName other) (hname : Node.IsName name) {mtime : Int}
    {es : List (String × Node)} (hget : t.root.get? (place ++ names) = some (.dir mtime es))
    (hlink : ∀ text, es.lookup name ≠ some (.link text)) :
    t.stat ⟨dir.anchor, dir.parts ++ (names ++ [name])⟩ =
      if (⟨dir.anchor, dir.parts ++ (names ++ [name])⟩ : Path).hasNull then .error .nullInPath
      else if pathLimit <
          (⟨dir.anchor, dir.parts ++ (names ++ [name])⟩ : Path).toString.utf8ByteSize then
        .error .nameTooLong
      else if ∀ other ∈ names ++ [name], other.utf8ByteSize ≤ nameLimit then
        (es.lookup name).elim (.error .noEntry) .ok
      else .error .nameTooLong := by
  have hstart : (⟨dir.anchor, dir.parts ++ (names ++ [name])⟩ : Path).isAbsolute =
      dir.isAbsolute := rfl
  obtain ⟨left, hleft⟩ := LeadsTo.locateFrom_append hdir (names ++ [name])
  unfold stat lookup locate
  rw [hstart, hleft, locateFrom_names hnames hget, locateFrom_last hname hget hlink]
  cases (⟨dir.anchor, dir.parts ++ (names ++ [name])⟩ : Path).hasNull with
  | true => rfl
  | false =>
    rw [if_neg Bool.false_ne_true]
    dsimp only
    split
    · rfl
    · simp only [List.forall_mem_append, List.forall_mem_singleton]
      by_cases hall : ∀ other ∈ names, other.utf8ByteSize ≤ nameLimit
      · by_cases hshort : name.utf8ByteSize ≤ nameLimit
        · rw [if_pos hall, if_pos hshort, if_pos ⟨hall, hshort⟩]
          simp only [bind, Except.bind, Node.get?_concat hget]
          cases es.lookup name <;> rfl
        · rw [if_pos hall, if_neg hshort, if_neg fun h => hshort h.2]
          rfl
      · rw [if_neg hall, if_neg fun h => hall h.1]
        rfl

/-- Behind a path to the same directory, the same is found under the same names. -/
theorem stat_congr {t' : FileTree} {dir : Path} (hdir : t.HasDir dir place)
    (hdir' : t'.HasDir dir place) {names : List String} {name : String}
    (hnames : ∀ other ∈ names ++ [name], Node.IsName other) {mtime mtime' : Int}
    {es es' : List (String × Node)} (hget : t.root.get? (place ++ names) = some (.dir mtime es))
    (hget' : t'.root.get? (place ++ names) = some (.dir mtime' es'))
    (hlink : ∀ text, es.lookup name ≠ some (.link text))
    (hsame : es'.lookup name = es.lookup name) :
    t'.stat ⟨dir.anchor, dir.parts ++ (names ++ [name])⟩ =
      t.stat ⟨dir.anchor, dir.parts ++ (names ++ [name])⟩ := by
  have hfront : ∀ other ∈ names, Node.IsName other := fun other h => hnames other (by simp [h])
  have hlast : Node.IsName name := hnames name (by simp)
  rw [stat_names hdir hfront hlast hget hlink,
    stat_names hdir' hfront hlast hget' (hsame.symm ▸ hlink), hsame]

end FileTree

end LinterSuite
