import LinterSuite.Proofs.FileTree.MakeDirs
import Mathlib.Data.List.Induction

/-!
# Directories that are not there

Where a path leads to nothing, longer paths lead to nothing either. A directory that is not there,
and to which a path of names leads from one that is, has no entries once it is made: whatever was
made on the way is new.

## Main definitions

* `FileTree.Lacks`: a directory that is not there

## Main results

* `FileTree.stat_child_of_noEntry`: there is nothing below a path to nothing
* `FileTree.eq_or_empty_of_makeDirs`: nothing was made, or the directory is empty
* `FileTree.Lacks.child?_eq_none`, `FileTree.Lacks.child?_makeDirs`: a directory that is not there
  has no entries, and none once it is made
-/

namespace LinterSuite.FileTree

variable {root : Node} {t made : FileTree} {links : Nat} {place components : List String}
  {above dir : Path} {name : String}

/-! ### Below a path to nothing -/

/-- Components that lead to nothing lead nowhere with more of them. -/
theorem locateFrom_append_of_absent
    (habsent : ∀ there, locateFrom root true links place components = .ok there →
      root.get? there = none)
    (hentry : ∀ e, locateFrom root true links place components = .error e → e = .noEntry)
    {more : List String} (hmore : more ≠ []) :
    locateFrom root true links place (components ++ more) = .error .noEntry := by
  -- The first name that is missing ends the way, now with components behind it.
  have hmissing : ∀ {links place name rest mtime es}, root.get? place = some (.dir mtime es) →
      name ≠ "." → name ≠ ".." → ¬ nameLimit < name.utf8ByteSize → es.lookup name = none →
        rest ≠ [] → locateFrom root true links place (name :: rest) = .error .noEntry := by
    intro links place name rest mtime es dir ne_dot ne_dots short absent hrest
    rw [locateFrom]
    simp only [dir, if_neg ne_dot, if_neg ne_dots, if_neg short, absent,
      List.isEmpty_eq_false_iff.mpr hrest, Bool.false_eq_true, if_false]
  fun_induction locateFrom root true links place components with
  | case1 links place =>
    obtain ⟨name, rest, rfl⟩ := List.exists_cons_of_ne_nil hmore
    rw [List.nil_append, locateFrom]
    simp only [habsent place rfl]
  | case2 links place rest _ _ dir ih =>
    rw [List.cons_append, locateFrom_dot dir]
    exact ih habsent hentry
  | case3 links place rest _ _ dir _ ih =>
    rw [List.cons_append, locateFrom_up dir]
    exact ih habsent hentry
  | case5 links place name rest _ _ dir ne_dot ne_dots short absent =>
    exact hmissing dir ne_dot ne_dots short absent (by simp [hmore])
  | case6 links place name rest _ _ dir ne_dot ne_dots short absent =>
    exact hmissing dir ne_dot ne_dots short absent (by simp [hmore])
  | case9 place name rest _ _ dir ne_dot ne_dots short text entry _ links ih =>
    have hmore := ih habsent hentry
    rw [List.cons_append, locateFrom_link dir ne_dot ne_dots (Nat.not_lt.mp short) entry (by simp)]
    rwa [List.append_assoc] at hmore
  | case10 links place name rest _ _ dir ne_dot ne_dots short n hlink entry ih =>
    rw [List.cons_append, locateFrom_down dir ne_dot ne_dots (Nat.not_lt.mp short) entry hlink]
    exact ih habsent hentry
  | case12 links place name rest hnone =>
    rw [List.cons_append, locateFrom]
    simp only [hnone]
  | case7 _ _ _ _ _ _ _ _ _ _ _ _ hlast => simp at hlast
  | case4 | case8 | case11 => cases hentry _ rfl

/-- There is nothing below a path to nothing. -/
theorem stat_child_of_noEntry (h : t.stat dir = .error .noEntry) (hfits : dir.Fits name) :
    t.stat (dir.child name) = .error .noEntry := by
  have hnull := Path.hasNull_of_fits hfits
  have hlocate : t.locate true dir = if pathLimit < dir.toString.utf8ByteSize then
        .error .nameTooLong
      else locateFrom t.root true linkLimit (if dir.isAbsolute then [] else t.cwd) dir.parts := by
    rw [locate, hnull]
  have hshort : ¬ pathLimit < dir.toString.utf8ByteSize := by
    intro hlong
    rw [stat, lookup, hlocate, if_pos hlong] at h
    exact nomatch h
  rw [if_neg hshort] at hlocate
  rw [stat, lookup, hlocate] at h
  have habsolute : (dir.child name).isAbsolute = dir.isAbsolute := rfl
  have hchild : t.locate true (dir.child name) = .error .noEntry := by
    unfold locate
    simp only [hfits.no_null, if_neg (Nat.not_lt.mpr hfits.path_short), habsolute]
    refine locateFrom_append_of_absent (fun there hthere => ?_) (fun e he => ?_) (by simp)
    · rw [hthere] at h
      cases hget : t.root.get? there with
      | none => rfl
      | some n => simp [hget, bind, Except.bind, pure, Except.pure] at h
    · rw [he] at h
      exact Except.error.inj h
  rw [stat, lookup, hchild]
  rfl

/-! ### Directories that were made -/

/-- Nothing was made, or a directory that is empty. -/
theorem eq_or_empty_of_ensureDir (hformed : t.WellFormed) (hplain : dir.IsPlain)
    (h : t.ensureDir dir = (made, .ok ())) (hdir : made.HasDir dir place) :
    made = t ∨ ∃ mtime, made.root.get? place = some (.dir mtime []) := by
  unfold ensureDir at h
  cases hmake : t.makeDir dir with
  | ok made' =>
    rw [hmake] at h
    obtain ⟨rfl, -⟩ := Prod.mk.inj h
    obtain ⟨parent, name, -, hat, hempty⟩ := isDirAt_of_makeDir hformed hplain hmake
    obtain rfl := hat.hasDir.unique hdir
    exact .inr ⟨_, hempty⟩
  | error e =>
    rw [hmake] at h
    exact .inl (Prod.mk.inj h).1.symm

/-- No name leads from an empty directory to another one. -/
theorem not_leadsTo_of_empty {mtime : Int} (hempty : root.get? place = some (.dir mtime []))
    (hdot : name ≠ ".") (hdots : name ≠ "..") {target : List String} :
    ¬ LeadsTo root links place [name] target := by
  intro h
  cases h with
  | dot => exact hdot rfl
  | up => exact hdots rfl
  | link dir _ _ _ entry =>
    obtain ⟨-, rfl⟩ := Node.dir.inj (Option.some.inj (hempty.symm.trans dir))
    exact nomatch entry
  | down dir _ _ _ entry =>
    obtain ⟨-, rfl⟩ := Node.dir.inj (Option.some.inj (hempty.symm.trans dir))
    exact nomatch entry

/-- Nothing was made, or the directory is empty, if a path of names leads to it from one that was
there. -/
theorem eq_or_empty_of_makeDirs (hformed : t.WellFormed) (habove : t.isDir above)
    {names : List String} (hnames : ∀ name ∈ names, name ≠ "." ∧ name ≠ "..")
    (hplain : (above.join ⟨.relative, names⟩).IsPlain)
    (h : t.makeDirs (above.join ⟨.relative, names⟩) = (made, .ok ()))
    (hdir : made.HasDir (above.join ⟨.relative, names⟩) place) :
    made = t ∨ ∃ mtime, made.root.get? place = some (.dir mtime []) := by
  induction names using List.reverseRecOn generalizing made place with
  | nil =>
    obtain ⟨_, hat⟩ := exists_isDirAt_of_isDir habove
    have habove : above.join ⟨.relative, []⟩ = above := by
      simp [Path.join, Path.isAbsolute]
    rw [habove, hat.makeDirs] at h
    exact .inl (Prod.mk.inj h).1.symm
  | append_singleton names last ih =>
    obtain ⟨hdot, hdots⟩ := hnames last (by simp)
    have hparent : (above.join ⟨.relative, names ++ [last]⟩).parent =
        above.join ⟨.relative, names⟩ := by
      simp [Path.join, Path.isAbsolute, Path.parent, ← List.append_assoc]
    rw [makeDirs] at h
    split at h
    · next made' hensure =>
      split at h
      · cases (Prod.mk.inj h).2
      rw [hparent] at h
      split at h
      · next mid hmid =>
        have hplain' : (above.join ⟨.relative, names⟩).IsPlain := hparent ▸ hplain.parent
        have hgrows := grows_makeDirs hformed hplain' hmid
        rcases eq_or_empty_of_ensureDir (hformed.grows hgrows) hplain h hdir with rfl | hempty
        · -- The directory above has this one in it, so it is not empty, and was there before.
          have hleads : LeadsTo made.root linkLimit (if above.isAbsolute then [] else made.cwd)
              ((above.parts ++ names) ++ [last]) place := by
            simpa [HasDir, Path.join, Path.isAbsolute] using hdir
          obtain ⟨middle, hmiddle, hlast⟩ := hleads.split
          refine .inl ((ih (fun name hname => hnames name (by simp [hname])) hplain' hmid
            hmiddle).resolve_right ?_)
          rintro ⟨mtime, hempty⟩
          exact not_leadsTo_of_empty hempty hdot hdots hlast
        · exact .inr hempty
      · cases (Prod.mk.inj h).2
    · exact eq_or_empty_of_ensureDir hformed hplain h hdir

/-- A directory that is not there. From one that is there a path of names leads to it, but there is
nothing. -/
structure Lacks (t : FileTree) (dir : Path) : Prop where
  absent : t.stat dir = .error .noEntry
  straight : ∃ above names, t.isDir above ∧ dir = above.join ⟨.relative, names⟩ ∧
    ∀ name ∈ names, name ≠ "." ∧ name ≠ ".."

namespace Lacks

variable (h : t.Lacks dir) (hne : name ≠ "") (hdot : name ≠ ".") (hdots : name ≠ "..")

include h

theorem not_hasDir (hfits : dir.Fits name) (hne : name ≠ "") : ¬ t.HasDir dir place := by
  intro hdir
  obtain ⟨mtime, es, hget⟩ := hdir.exists_dir
  have hstat : t.stat dir = .ok (.dir mtime es) :=
    lookup_eq_ok_iff.mpr ⟨place, locate_eq_ok_iff.mpr
      ⟨Path.hasNull_of_fits hfits, Path.short_of_fits hfits hne, hdir.locateFrom_eq⟩, hget⟩
  rw [h.absent] at hstat
  exact nomatch hstat

include hne hdot hdots

theorem child?_eq_none : t.child? dir name = none := by
  refine Option.eq_none_iff_forall_ne_some.mpr fun n hn => ?_
  obtain ⟨hfits, place, hdir⟩ := hasDir_of_child? hdot hdots hn
  exact h.not_hasDir hfits hne hdir

/-- Once it is made, as far as that is possible, it has no entries either. -/
theorem child?_makeDirs (hformed : t.WellFormed) (hplain : dir.IsPlain) :
    (t.makeDirs dir).1.child? dir name = none := by
  refine Option.eq_none_iff_forall_ne_some.mpr fun n hn => ?_
  obtain ⟨hfits, place, hdir⟩ := hasDir_of_child? hdot hdots hn
  rcases hmake : t.makeDirs dir with ⟨made, e | _⟩
  · -- It could not be made, and so it is not there.
    obtain ⟨e', hagain⟩ := makeDirs_again_of_error hformed hplain hmake
    rw [hmake] at hdir
    have hthere := makeDirs_of_hasDir hdir (Path.hasNull_of_fits hfits)
      (Path.short_of_fits hfits hne)
    rw [hthere] at hagain
    exact nomatch (Prod.mk.inj hagain).2
  · rw [hmake] at hdir hn
    obtain ⟨above, names, habove, rfl, hnames⟩ := h.straight
    rcases eq_or_empty_of_makeDirs hformed habove hnames hplain hmake hdir with rfl | ⟨_, hempty⟩
    · exact h.not_hasDir hfits hne hdir
    · exact nomatch ((child?_eq_some_iff_lookup hdir hempty hdot hdots).mp hn).2

end Lacks

end LinterSuite.FileTree
