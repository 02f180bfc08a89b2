import Mathlib.Data.List.Forall2
import Mathlib.Data.Set.Function

/-!
# Members of lists

Lists in which a member is replaced, and lists whose members are related side by side.

## Main results

* `filterMap_set_of_eq`, `perm_filterMap_set`: what a list counts after a member was replaced
* `forall₂_comp`, `forall₂_zip_right`: lists side by side with a third one
* `forall₂_set`, `forall₂_set_set`, `forall₂_set_distinct`: replaced members of lists side by side
* `eq_of_map_eq`: lists that are told apart by what they are mapped to
-/

namespace LinterSuite

/-! ### What a list counts -/

section FilterMap

variable {α β : Type} {f : α → Option β} {xs : List α} {i : Nat} {x x' : α} {y : β}

/-- A member is replaced by one that counts for the same. -/
theorem filterMap_set_of_eq (hx : xs[i]? = some x) (hfx : f x' = f x) :
    (xs.set i x').filterMap f = xs.filterMap f := by
  induction xs generalizing i with
  | nil => rfl
  | cons first xs ih =>
    cases i with
    | zero =>
      obtain rfl := Option.some.inj hx
      rw [List.set_cons_zero, List.filterMap_cons, List.filterMap_cons, hfx]
    | succ i => rw [List.set_cons_succ, List.filterMap_cons, List.filterMap_cons, ih hx]

/-- A member that counts for nothing is replaced by one that counts. -/
theorem perm_filterMap_set (hx : xs[i]? = some x) (hfx : f x = none) (hfx' : f x' = some y) :
    (y :: xs.filterMap f).Perm ((xs.set i x').filterMap f) := by
  induction xs generalizing i with
  | nil => exact nomatch hx
  | cons first xs ih =>
    cases i with
    | zero =>
      obtain rfl := Option.some.inj hx
      rw [List.set_cons_zero, List.filterMap_cons_some hfx', List.filterMap_cons_none hfx]
    | succ i =>
      rw [List.set_cons_succ]
      cases hfirst : f first with
      | none =>
        rw [List.filterMap_cons_none hfirst, List.filterMap_cons_none hfirst]
        exact ih hx
      | some z =>
        rw [List.filterMap_cons_some hfirst, List.filterMap_cons_some hfirst]
        exact (List.Perm.swap z y _).trans ((ih hx).cons z)

end FilterMap

/-! ### Lists side by side -/

section SideBySide

variable {α β γ : Type} {R S : α → β → Prop} {f : α → γ} {xs : List α} {ys : List β}
  {zs : List γ} {i : Nat} {y y' : β}

/-- A relation between the members of two lists, taken through a third list. -/
theorem forall₂_comp {Q : β → γ → Prop} {T : α → γ → Prop} (h : List.Forall₂ R xs ys)
    (h' : List.Forall₂ Q ys zs) (hcomp : ∀ x y z, R x y → Q y z → T x z) :
    List.Forall₂ T xs zs := by
  induction h generalizing zs with
  | nil =>
    cases h'
    exact .nil
  | cons hxy _ ih =>
    obtain ⟨z, zs, hz, hzs, rfl⟩ := List.forall₂_cons_left_iff.mp h'
    exact .cons (hcomp _ _ _ hxy hz) (ih hzs)

theorem exists_of_mem_forall₂ (h : List.Forall₂ R xs ys) (hy : y ∈ ys) : ∃ x ∈ xs, R x y := by
  induction h with
  | nil => exact absurd hy List.not_mem_nil
  | cons hxy _ ih =>
    rcases List.mem_cons.mp hy with rfl | hy
    · exact ⟨_, List.mem_cons_self, hxy⟩
    · obtain ⟨x, hx, hR⟩ := ih hy
      exact ⟨x, List.mem_cons_of_mem _ hx, hR⟩

theorem map_eq_map_of_forall₂ {g : β → γ} (h : List.Forall₂ R xs ys)
    (heq : ∀ x y, R x y → f x = g y) : xs.map f = ys.map g := by
  induction h with
  | nil => rfl
  | cons hxy _ ih => rw [List.map_cons, List.map_cons, heq _ _ hxy, ih]

theorem forall₂_imp_of_mem (h : List.Forall₂ R xs ys)
    (himp : ∀ x ∈ xs, ∀ y ∈ ys, R x y → S x y) : List.Forall₂ S xs ys := by
  induction h with
  | nil => exact .nil
  | cons hxy _ ih =>
    exact .cons (himp _ List.mem_cons_self _ List.mem_cons_self hxy)
      (ih fun x hx y hy => himp x (List.mem_cons_of_mem _ hx) y (List.mem_cons_of_mem _ hy))

/-- One member of a list may be replaced by another that is related to the same members. -/
theorem forall₂_set (h : List.Forall₂ R xs ys) (hy : ys[i]? = some y)
    (hnext : ∀ x ∈ xs, R x y → R x y') : List.Forall₂ R xs (ys.set i y') := by
  induction h generalizing i with
  | nil => exact .nil
  | cons hxy hrest ih =>
    cases i with
    | zero =>
      obtain rfl := Option.some.inj hy
      exact .cons (hnext _ List.mem_cons_self hxy) hrest
    | succ i => exact .cons hxy (ih hy fun x hx => hnext x (List.mem_cons_of_mem _ hx))

theorem exists_getElem?_of_forall₂ (h : List.Forall₂ R xs ys) (hy : ys[i]? = some y) :
    ∃ x, xs[i]? = some x ∧ R x y := by
  induction h generalizing i with
  | nil => exact nomatch hy
  | cons hxy _ ih =>
    cases i with
    | zero =>
      obtain rfl := Option.some.inj hy
      exact ⟨_, rfl, hxy⟩
    | succ i => exact ih hy

/-- Both members at one place may be replaced by others that are related. -/
theorem forall₂_set_set (h : List.Forall₂ R xs ys) {x' : α} (hxy : R x' y') :
    List.Forall₂ R (xs.set i x') (ys.set i y') := by
  induction h generalizing i with
  | nil => exact .nil
  | cons hfirst hrest ih =>
    cases i with
    | zero => exact .cons hxy hrest
    | succ i => exact .cons hfirst ih

theorem forall₂_zip_right {T : α → γ → Prop} (h : List.Forall₂ R xs ys)
    (h' : List.Forall₂ T xs zs) : List.Forall₂ (fun x p => R x p.1 ∧ T x p.2) xs (ys.zip zs) := by
  induction h generalizing zs with
  | nil =>
    cases h'
    exact .nil
  | cons hxy _ ih =>
    obtain ⟨z, zs, hxz, hzs, rfl⟩ := List.forall₂_cons_left_iff.mp h'
    exact .cons ⟨hxy, hxz⟩ (ih hzs)

/-- One member of a list is replaced, and all others are related in a new way. The members of the
first list are told apart by something that they have. -/
theorem forall₂_set_distinct (h : List.Forall₂ R xs ys) (hdistinct : (xs.map f).Nodup) {c : γ}
    (hy : ys[i]? = some y) (hc : ∀ x ∈ xs, R x y → f x = c)
    (hnext : ∀ x ∈ xs, R x y → S x y') (hothers : ∀ x ∈ xs, ∀ z ∈ ys, f x ≠ c → R x z → S x z) :
    List.Forall₂ S xs (ys.set i y') := by
  induction h generalizing i with
  | nil => exact .nil
  | @cons x z xs ys hxz hrest ih =>
    obtain ⟨hx, hxs⟩ := List.nodup_cons.mp hdistinct
    have hothers' : ∀ x' ∈ xs, ∀ z' ∈ ys, f x' ≠ c → R x' z' → S x' z' := fun x' hx' z' hz' =>
      hothers x' (List.mem_cons_of_mem _ hx') z' (List.mem_cons_of_mem _ hz')
    cases i with
    | zero =>
      obtain rfl := Option.some.inj hy
      -- The head is replaced, and nothing behind it shares what tells it apart.
      refine .cons (hnext _ List.mem_cons_self hxz)
        (forall₂_imp_of_mem hrest fun x' hx' z' hz' => ?_)
      refine hothers' x' hx' z' hz' ?_
      rw [← hc x List.mem_cons_self hxz]
      exact fun heq => hx (heq ▸ List.mem_map_of_mem hx')
    | succ i =>
      refine .cons (hothers x List.mem_cons_self z List.mem_cons_self ?_ hxz) ?_
      · -- What is replaced is further behind, so it is not the head.
        obtain ⟨x', hx', hR⟩ := exists_of_mem_forall₂ hrest (List.mem_of_getElem? hy)
        rw [← hc x' (List.mem_cons_of_mem _ hx') hR]
        exact fun heq => hx (heq ▸ List.mem_map_of_mem hx')
      · exact ih hxs hy (fun x' hx' => hc x' (List.mem_cons_of_mem _ hx'))
          (fun x' hx' => hnext x' (List.mem_cons_of_mem _ hx')) hothers'

/-- Two lists are the same if their members are told apart by what they are mapped to. -/
theorem eq_of_map_eq {xs' : List α} (hinj : Set.InjOn f {x | x ∈ xs ∨ x ∈ xs'})
    (h : xs.map f = xs'.map f) : xs = xs' := by
  have hpairs : List.Forall₂ (fun x x' => f x = f x') xs xs' := by
    rw [← List.forall₂_map_left_iff (R := fun c x' => c = f x'),
      ← List.forall₂_map_right_iff (R := fun c c' => c = c'), h]
    exact List.forall₂_refl _
  rw [← List.forall₂_eq_eq_eq]
  exact forall₂_imp_of_mem hpairs fun x hx x' hx' heq => hinj (.inl hx) (.inr hx') heq

end SideBySide

end LinterSuite
