import LinterSuite.Proofs.FileTree.Growth

/-!
# Making directories

To make a directory and those above it, they are made one after the other as far as that is
possible. The tree only grows by it. If it worked, the path leads to a directory; in any case there
is nothing more to be made when the same is tried again.

## Main definitions

* `FileTree.WellFormed`: a well-named tree with a current directory
* `Path.IsPlain`: a path whose components could be names, or dots

## Main results

* `FileTree.grows_makeDirs`: the tree grows by directories only
* `FileTree.hasDir_of_makeDirs`: if it worked, the path leads to a directory
* `FileTree.makeDirs_again`: trying again changes nothing, and works if it worked before
-/

namespace LinterSuite

/-- A path whose components are not empty and have no separator in them. -/
def Path.IsPlain (p : Path) : Prop := ∀ part ∈ p.parts, part ≠ "" ∧ '/' ∉ part.toList

theorem Path.IsPlain.parent {p : Path} (h : p.IsPlain) : p.parent.IsPlain :=
  fun part hpart => h part (List.dropLast_subset _ hpart)

/-- A path is a component behind the path without it. -/
theorem Path.parent_child {p : Path} {last : String} (h : p.parts.getLast? = some last) :
    p.parent.child last = p := by
  obtain ⟨anchor, parts⟩ := p
  obtain ⟨front, rfl⟩ := List.getLast?_eq_some_iff.mp h
  simp [Path.parent, Path.child]

namespace FileTree

variable {t t' made : FileTree} {p : Path}

/-- A well-named tree with a current directory. -/
structure WellFormed (t : FileTree) : Prop where
  named : t.root.WellNamed
  here : ∃ mtime es, t.root.get? t.cwd = some (.dir mtime es)

theorem WellFormed.grows {dirs files : List String → Prop} (h : t.WellFormed)
    (hgrows : t.Grows dirs files t') : t'.WellFormed := by
  obtain ⟨_, _, hhere⟩ := h.here
  exact ⟨hgrows.wellNamed h.named, hgrows.cwd ▸ hgrows.isDir hhere⟩

/-- A path to nothing leads into a directory, where there is nothing of its last component. -/
theorem exists_parent_of_absent {root : Node} {links : Nat} {place components there : List String}
    (h : locateFrom root false links place components = .ok there)
    (hplace : ∃ n, root.get? place = some n) (habsent : root.get? there = none) :
    ∃ parent mtime es name, there = parent ++ [name] ∧ root.get? parent = some (.dir mtime es) ∧
      components.getLast? = some name ∧ name ≠ "." ∧ name ≠ ".." := by
  have hup : ∀ place : List String, (∃ mtime es, root.get? place = some (.dir mtime es)) →
      ∃ n, root.get? place.dropLast = some n := by
    rintro place ⟨mtime, es, hdir⟩
    rcases place.eq_nil_or_concat with rfl | ⟨front, last, rfl⟩
    · exact ⟨_, hdir⟩
    · rw [List.concat_eq_append] at hdir ⊢
      obtain ⟨_, _, hfront⟩ := Node.exists_dir_of_get?_append hdir
      exact ⟨_, by rwa [List.dropLast_concat]⟩
  fun_induction locateFrom root false links place components with
  | case1 links place =>
    obtain rfl := Except.ok.inj h
    obtain ⟨n, hn⟩ := hplace
    simp [habsent] at hn
  | case2 links place rest _ _ dir ih =>
    obtain ⟨parent, mtime, es, name, heq, hparent, hlast, hne⟩ := ih h hplace
    exact ⟨parent, mtime, es, name, heq, hparent, by simp [List.getLast?_cons, hlast], hne⟩
  | case3 links place rest _ _ dir _ ih =>
    obtain ⟨parent, mtime, es, name, heq, hparent, hlast, hne⟩ := ih h (hup place ⟨_, _, dir⟩)
    exact ⟨parent, mtime, es, name, heq, hparent, by simp [List.getLast?_cons, hlast], hne⟩
  | case5 links place name rest mtime es dir ne_dot ne_dots _ _ hlast =>
    obtain rfl := Except.ok.inj h
    obtain rfl := List.isEmpty_iff.mp hlast
    exact ⟨place, mtime, es, name, rfl, dir, rfl, ne_dot, ne_dots⟩
  | case7 links place name rest _ es dir _ _ _ text entry =>
    obtain rfl := Except.ok.inj h
    rw [Node.get?_concat dir, entry] at habsent
    cases habsent
  | case9 place name rest _ es dir _ _ _ text entry hmore links ih =>
    have hstart :
        ∃ n, root.get? (if (Path.ofString text).isAbsolute then [] else place) = some n := by
      split
      · exact ⟨root, Node.get?_nil root⟩
      · exact hplace
    obtain ⟨parent, mtime, es, last, heq, hparent, hlast, hne⟩ := ih h hstart
    have hrest : rest ≠ [] := by simpa using hmore
    -- The link is in the middle of the way, so the last component is not one of its own.
    have hlast : rest.getLast? = some last := by
      rwa [List.getLast?_append_of_ne_nil _ hrest] at hlast
    exact ⟨parent, mtime, es, last, heq, hparent, by simp [List.getLast?_cons, hlast], hne⟩
  | case10 links place name rest _ es dir _ _ _ n _ entry ih =>
    obtain ⟨parent, mtime, es, last, heq, hparent, hlast, hne⟩ :=
      ih h ⟨n, (Node.get?_concat dir name).trans entry⟩
    exact ⟨parent, mtime, es, last, heq, hparent, by simp [List.getLast?_cons, hlast], hne⟩
  | case4 | case6 | case8 | case11 | case12 => cases h

/-! ### One directory -/

/-- The place from which a path is followed is there. -/
theorem WellFormed.exists_start (h : t.WellFormed) (p : Path) :
    ∃ n, t.root.get? (if p.isAbsolute then [] else t.cwd) = some n := by
  split
  · exact ⟨t.root, Node.get?_nil t.root⟩
  · obtain ⟨_, _, hhere⟩ := h.here
    exact ⟨_, hhere⟩

/-- A new directory is put into another one, under the last component of its path. -/
theorem makeDir_eq_ok (hformed : t.WellFormed) (h : t.makeDir p = .ok made) :
    ∃ parent mtime es name, p.parts.getLast? = some name ∧ name ≠ "." ∧ name ≠ ".." ∧
      p.hasNull = false ∧ p.toString.utf8ByteSize ≤ pathLimit ∧
      locateFrom t.root false linkLimit (if p.isAbsolute then [] else t.cwd) p.parts =
        .ok (parent ++ [name]) ∧
      t.root.get? parent = some (.dir mtime es) ∧ es.lookup name = none ∧
      made = { t with root := t.root.insert t.clock (parent ++ [name]) (.dir t.clock []) } := by
  obtain ⟨there, hlocate, h⟩ := Except.bind_eq_ok_iff.mp h
  obtain ⟨hnull, hshort, hlocate⟩ := locate_eq_ok_iff.mp hlocate
  split at h
  · exact nomatch h
  · next habsent =>
    obtain rfl := Except.ok.inj h
    obtain ⟨parent, mtime, es, name, rfl, hparent, hlast, hdot, hdots⟩ :=
      exists_parent_of_absent hlocate (hformed.exists_start p) habsent
    rw [Node.get?_concat hparent] at habsent
    exact ⟨parent, mtime, es, name, hlast, hdot, hdots, hnull, hshort, hlocate, hparent, habsent,
      rfl⟩

theorem grows_makeDir (hformed : t.WellFormed) (hplain : p.IsPlain) (h : t.makeDir p = .ok made) :
    t.Grows (fun _ => True) (fun _ => False) made := by
  obtain ⟨parent, mtime, es, name, hlast, hdot, hdots, hnull, -, -, hparent, habsent, rfl⟩ :=
    makeDir_eq_ok hformed h
  have hmem : name ∈ p.parts := List.mem_of_getLast? hlast
  obtain ⟨hempty, hseparator⟩ := hplain name hmem
  have hname : Node.IsName name := by
    refine ⟨hempty, hdot, hdots, hseparator, ?_⟩
    have hall := List.any_eq_false.mp hnull name hmem
    simpa using hall
  refine ⟨rfl, fun hnamed => hnamed.insert hparent hname ?_ _, fun names => ?_⟩
  · exact .dir (by simp) (by simp) (by simp)
  · have hleaf : ∀ first rest, (Node.dir t.clock []).get? (first :: rest) = none := fun _ _ => rfl
    rcases Node.becomes_insert hparent (.inl habsent) hleaf t.clock names with
      ⟨rfl, hnew⟩ | ⟨-, hbecomes⟩
    · rw [hnew, Node.get?_concat hparent, habsent]
      exact .new trivial ..
    · exact hbecomes.mono False.elim False.elim

theorem grows_ensureDir (hformed : t.WellFormed) (hplain : p.IsPlain)
    {result : Except FileError Unit} (h : t.ensureDir p = (made, result)) :
    t.Grows (fun _ => True) (fun _ => False) made := by
  unfold ensureDir at h
  cases hmake : t.makeDir p with
  | ok made' =>
    rw [hmake] at h
    obtain ⟨rfl, -⟩ := Prod.mk.inj h
    exact grows_makeDir hformed hplain hmake
  | error e =>
    rw [hmake] at h
    obtain ⟨rfl, -⟩ := Prod.mk.inj h
    exact .refl t

/-- Components that lead to a directory, with the name of one in it, lead to that one. -/
theorem LeadsTo.concat {root : Node} {links : Nat} {place components target : List String}
    (h : LeadsTo root links place components target) {name : String} (hdot : name ≠ ".")
    (hdots : name ≠ "..") (hshort : name.utf8ByteSize ≤ nameLimit) {mtime : Int}
    {es : List (String × Node)} (hdir : root.get? (target ++ [name]) = some (.dir mtime es)) :
    LeadsTo root links place (components ++ [name]) (target ++ [name]) := by
  induction h with
  | here dir => exact .down_of_next dir hdot hdots hshort (.here hdir)
  | dot dir _ ih => exact .dot dir (ih hdir)
  | up dir _ ih => exact .up dir (ih hdir)
  | link dir ne_dot ne_dots short entry _ ih =>
    exact .link dir ne_dot ne_dots short entry (by simpa using ih hdir)
  | down dir ne_dot ne_dots short entry _ ih =>
    exact .down dir ne_dot ne_dots short entry (ih hdir)

theorem IsDirAt.makeDirs {place : List String} (h : t.IsDirAt p place) :
    t.makeDirs p = (t, .ok ()) := makeDirs_of_hasDir h.hasDir h.hasNull h.short

/-- The path without its last component is fit to be worked with, too. -/
theorem isDirAt_parent {place : List String} (hplain : p.IsPlain) (hne : p.parts ≠ [])
    (hnull : p.hasNull = false) (hshort : p.toString.utf8ByteSize ≤ pathLimit)
    (hdir : t.HasDir p.parent place) : t.IsDirAt p.parent place := by
  obtain ⟨last, hlast⟩ := Option.ne_none_iff_exists'.mp (mt List.getLast?_eq_none_iff.mp hne)
  have hempty : last ≠ "" := (hplain last (List.mem_of_getLast? hlast)).1
  have hle := Path.utf8ByteSize_toString_le p.parent hempty
  rw [Path.parent_child hlast] at hle
  refine ⟨hdir, List.any_eq_false.mpr fun part hpart => ?_, Nat.le_trans hle hshort⟩
  exact List.any_eq_false.mp hnull part (List.dropLast_subset _ hpart)

/-- A directory that was made is in the one that its path leads to without the last component. It is
empty, and its path leads to it. -/
theorem isDirAt_of_makeDir (hformed : t.WellFormed) (hplain : p.IsPlain)
    (h : t.makeDir p = .ok made) : ∃ place name, t.HasDir p.parent place ∧
      made.IsDirAt p (place ++ [name]) ∧
      made.root.get? (place ++ [name]) = some (.dir t.clock []) := by
  have hgrows := grows_makeDir hformed hplain h
  obtain ⟨parent, mtime, es, name, hlast, hdot, hdots, hnull, hshort, hlocate, hparent, habsent,
    rfl⟩ := makeDir_eq_ok hformed h
  have hchild := Path.parent_child hlast
  have hparts : p.parts = p.parent.parts ++ [name] := congrArg Path.parts hchild.symm
  rw [hparts] at hlocate
  obtain ⟨hname, place, hleads⟩ := leadsTo_of_locateFrom_concat hlocate hdot hdots
  -- The directory into which it was put is the one of the path without its last component.
  obtain ⟨_, _, hplace⟩ := hleads.exists_dir
  have hthere : locateFrom t.root false _ _ _ = _ :=
    hleads.locateFrom_concat hplace hdot hdots hname nofun
  obtain ⟨rfl, -⟩ := List.append_inj' (Except.ok.inj (hthere.symm.trans hlocate)) rfl
  have hbefore : t.HasDir p.parent place := hleads
  have hput := Node.get?_insert hparent t.clock name (.dir t.clock [])
  have hnew := (Node.get?_concat hput name).trans (Keyed.lookup_put_self ..)
  have hafter := LeadsTo.concat (hgrows.hasDir hbefore) hdot hdots hname hnew
  refine ⟨place, name, hbefore, ⟨?_, hnull, hshort⟩, hnew⟩
  unfold HasDir
  rw [hparts]
  exact hafter

/-- If a directory can be made, or is there, then its path leads to it afterwards, and the path
without its last component did so before. -/
theorem exists_isDirAt_of_ensureDir (hformed : t.WellFormed) (hplain : p.IsPlain)
    (h : t.ensureDir p = (made, .ok ())) :
    (∃ place, made.IsDirAt p place) ∧ (p.parts ≠ [] → ∃ place, t.IsDirAt p.parent place) := by
  unfold ensureDir at h
  cases hmake : t.makeDir p with
  | ok made' =>
    rw [hmake] at h
    obtain ⟨rfl, -⟩ := Prod.mk.inj h
    obtain ⟨place, name, hbefore, hat, -⟩ := isDirAt_of_makeDir hformed hplain hmake
    exact ⟨⟨_, hat⟩, fun hne =>
      ⟨place, isDirAt_parent hplain hne hat.hasNull hat.short hbefore⟩⟩
  | error e =>
    rw [hmake] at h
    obtain ⟨rfl, hok⟩ := Prod.mk.inj h
    have hisDir : t.isDir p := by
      by_contra hnot
      simp [hnot] at hok
    obtain ⟨place, hat⟩ := exists_isDirAt_of_isDir hisDir
    refine ⟨⟨place, hat⟩, fun hne => ?_⟩
    obtain ⟨last, hlast⟩ := Option.ne_none_iff_exists'.mp (mt List.getLast?_eq_none_iff.mp hne)
    have hparts : p.parts = p.parent.parts ++ [last] :=
      congrArg Path.parts (Path.parent_child hlast).symm
    have hleads : LeadsTo t.root linkLimit (if p.isAbsolute then [] else t.cwd)
        (p.parent.parts ++ [last]) place := hparts ▸ hat.hasDir
    obtain ⟨middle, hfront, -⟩ := hleads.split
    exact ⟨middle, isDirAt_parent hplain hne hat.hasNull hat.short hfront⟩

/-! ### A directory and those above it -/

/-- What cannot be made leaves the tree as it is. -/
theorem ensureDir_of_error {e : FileError} (h : t.ensureDir p = (made, .error e)) : made = t := by
  unfold ensureDir at h
  cases hmake : t.makeDir p with
  | ok made' =>
    rw [hmake] at h
    exact nomatch (Prod.mk.inj h).2
  | error e' =>
    rw [hmake] at h
    exact (Prod.mk.inj h).1.symm

/-- The tree grows by directories only, whether or not all of them can be made. -/
theorem grows_makeDirs (hformed : t.WellFormed) (hplain : p.IsPlain)
    {result : Except FileError Unit} (h : t.makeDirs p = (made, result)) :
    t.Grows (fun _ => True) (fun _ => False) made := by
  fun_induction makeDirs t p generalizing made result with
  | case1 p made' hensure =>
    obtain ⟨rfl, -⟩ := Prod.mk.inj h
    exact grows_ensureDir hformed hplain hensure
  | case2 p _ _ _ above habove ih =>
    have hgrows := ih hplain.parent habove
    exact hgrows.trans (grows_ensureDir (hformed.grows hgrows) hplain h)
  | case3 p _ _ _ above e habove ih =>
    obtain ⟨rfl, -⟩ := Prod.mk.inj h
    exact ih hplain.parent habove
  | case4 p => exact grows_ensureDir hformed hplain h

/-- If all directories could be made, the path leads to the last of them. -/
theorem exists_isDirAt_of_makeDirs (hformed : t.WellFormed) (hplain : p.IsPlain)
    (h : t.makeDirs p = (made, .ok ())) : ∃ place, made.IsDirAt p place := by
  rw [makeDirs] at h
  split at h
  · next made' hensure =>
    split at h
    · cases (Prod.mk.inj h).2
    · split at h
      · next above habove =>
        have hgrows := grows_makeDirs hformed hplain.parent habove
        exact (exists_isDirAt_of_ensureDir (hformed.grows hgrows) hplain h).1
      · cases (Prod.mk.inj h).2
  · exact (exists_isDirAt_of_ensureDir hformed hplain h).1

/-- If some directory could not be made, trying again makes none, and fails again. -/
theorem makeDirs_again_of_error (hformed : t.WellFormed) (hplain : p.IsPlain) {e : FileError}
    (h : t.makeDirs p = (made, .error e)) : ∃ e', made.makeDirs p = (made, .error e') := by
  fun_induction makeDirs t p generalizing made e with
  | case1 p made' hensure hroot =>
    obtain ⟨rfl, -⟩ := Prod.mk.inj h
    obtain rfl := ensureDir_of_error hensure
    exact ⟨.noEntry, by rw [makeDirs, hensure]; simp only [hroot, if_true]⟩
  | case2 p _ _ hroot above habove =>
    have hgrows := grows_makeDirs hformed hplain.parent habove
    obtain ⟨place, hparent⟩ := exists_isDirAt_of_makeDirs hformed hplain.parent habove
    obtain rfl := ensureDir_of_error h
    refine ⟨e, ?_⟩
    rw [makeDirs, h]
    -- The directories above are there, so only the last one is tried again.
    cases e with
    | noEntry => simp only [hroot, if_false, hparent.makeDirs, h]
    | _ => rfl
  | case3 p _ _ hroot above _ habove ih =>
    obtain ⟨rfl, -⟩ := Prod.mk.inj h
    obtain ⟨e', hagain⟩ := ih hplain.parent habove
    have hgrows := grows_makeDirs hformed hplain.parent habove
    rw [makeDirs]
    rcases hensure : above.ensureDir p with ⟨tried, e'' | _⟩
    · obtain rfl := ensureDir_of_error hensure
      cases e'' with
      | noEntry => exact ⟨e', by simp only [hroot, if_false, hagain]⟩
      | _ => exact ⟨_, rfl⟩
    · -- It could not be made now, since the directory above it is not there.
      obtain ⟨place, hparent⟩ := (exists_isDirAt_of_ensureDir (hformed.grows hgrows) hplain
        hensure).2 fun hnil => hroot (by rw [hnil, List.length_nil])
      rw [hparent.makeDirs] at hagain
      cases (Prod.mk.inj hagain).2
  | case4 p hother =>
    obtain rfl := ensureDir_of_error h
    refine ⟨e, ?_⟩
    rw [makeDirs, h]
    cases e with
    | noEntry => exact absurd h (hother _)
    | _ => rfl

/-- Trying again changes nothing, and works if it worked before. -/
theorem makeDirs_again (hformed : t.WellFormed) (hplain : p.IsPlain)
    {result : Except FileError Unit} (h : t.makeDirs p = (made, result)) :
    ∃ result', made.makeDirs p = (made, result') ∧ (result' = .ok () ↔ result = .ok ()) := by
  cases result with
  | error e =>
    obtain ⟨e', hagain⟩ := makeDirs_again_of_error hformed hplain h
    exact ⟨_, hagain, by simp⟩
  | ok _ =>
    obtain ⟨place, hat⟩ := exists_isDirAt_of_makeDirs hformed hplain h
    exact ⟨_, hat.makeDirs, Iff.rfl⟩

end FileTree

end LinterSuite
