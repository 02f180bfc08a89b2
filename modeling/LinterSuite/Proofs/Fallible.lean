import Mathlib.Data.List.Forall2

/-!
# Computations that may fail

When a chain of computations that may fail gives a value, every link of it did. These are the
statements by which such chains are taken apart.

## Main results

* `Except.bind_eq_ok_iff`, `Except.map_eq_ok_iff`, `Except.mapError_eq_ok_iff`: one step of a chain
* `Except.bind_eq_error_iff`, `Except.mapError_eq_error_iff`: the same step when it fails
* `Except.mapM_eq_ok_iff`: the same step taken for every member of a list
* `Except.exists_of_mem_mapM`, `Except.exists_mem_of_mapM`: members and their results
* `Except.of_mem_filterM`: members that passed a test
* `Except.forall_map_eq_iff`: two computations that agree on all members
-/

namespace Except

variable {ε ε' α β : Type}

theorem bind_eq_ok_iff {x : Except ε α} {f : α → Except ε β} {b : β} :
    x >>= f = .ok b ↔ ∃ a, x = .ok a ∧ f a = .ok b := by
  cases x <;> simp [bind, Except.bind]

theorem bind_eq_error_iff {x : Except ε α} {f : α → Except ε β} {e : ε} :
    x >>= f = .error e ↔ x = .error e ∨ ∃ a, x = .ok a ∧ f a = .error e := by
  cases x <;> simp [bind, Except.bind]

theorem map_eq_ok_iff {x : Except ε α} {f : α → β} {b : β} :
    x.map f = .ok b ↔ ∃ a, x = .ok a ∧ f a = b := by
  cases x <;> simp [Except.map]

theorem map_eq_error_iff {x : Except ε α} {f : α → β} {e : ε} :
    x.map f = .error e ↔ x = .error e := by
  cases x <;> simp [Except.map]

theorem mapError_eq_ok_iff {x : Except ε α} {f : ε → ε'} {a : α} :
    x.mapError f = .ok a ↔ x = .ok a := by
  cases x <;> simp [Except.mapError]

theorem mapError_eq_error_iff {x : Except ε α} {f : ε → ε'} {e : ε'} :
    x.mapError f = .error e ↔ ∃ e', x = .error e' ∧ f e' = e := by
  cases x <;> simp [Except.mapError]

theorem pure_eq_ok_iff {a b : α} : (pure a : Except ε α) = .ok b ↔ a = b :=
  Except.ok.injEq a b ▸ Iff.rfl

theorem mapM_eq_ok_iff {f : α → Except ε β} {xs : List α} {ys : List β} :
    xs.mapM f = .ok ys ↔ List.Forall₂ (fun x y => f x = .ok y) xs ys := by
  induction xs generalizing ys with
  | nil => cases ys <;> simp [pure, Except.pure]
  | cons x xs ih =>
    simp only [List.mapM_cons, bind_eq_ok_iff, pure_eq_ok_iff, List.forall₂_cons_left_iff, ih]
    constructor
    · rintro ⟨y, hy, ys', hys', rfl⟩
      exact ⟨y, ys', hy, hys', rfl⟩
    · rintro ⟨y, ys', hy, hys', rfl⟩
      exact ⟨y, hy, ys', hys', rfl⟩

/-- Every result of a list of computations is the result of one of them. -/
theorem exists_of_mem_mapM {f : α → Except ε β} {xs : List α} {ys : List β}
    (h : xs.mapM f = .ok ys) {y : β} (hy : y ∈ ys) : ∃ x ∈ xs, f x = .ok y := by
  rw [mapM_eq_ok_iff] at h
  induction h with
  | nil => simp at hy
  | @cons x y' xs ys' hx _ ih =>
    rcases List.mem_cons.mp hy with rfl | hy
    · exact ⟨x, List.mem_cons_self, hx⟩
    · obtain ⟨x', hx', hfx'⟩ := ih hy
      exact ⟨x', List.mem_cons_of_mem _ hx', hfx'⟩

theorem exists_mapM_eq_ok {f : α → Except ε β} {xs : List α} (h : ∀ x ∈ xs, ∃ y, f x = .ok y) :
    ∃ ys, xs.mapM f = .ok ys := by
  induction xs with
  | nil => exact ⟨[], rfl⟩
  | cons x xs ih =>
    obtain ⟨y, hy⟩ := h x List.mem_cons_self
    obtain ⟨ys, hys⟩ := ih fun x' hx' => h x' (List.mem_cons_of_mem _ hx')
    exact ⟨y :: ys, mapM_eq_ok_iff.mpr (.cons hy (mapM_eq_ok_iff.mp hys))⟩

/-- Every computation of a list that gives results gives one of them. -/
theorem exists_mem_of_mapM {f : α → Except ε β} {xs : List α} {ys : List β}
    (h : xs.mapM f = .ok ys) {x : α} (hx : x ∈ xs) : ∃ y ∈ ys, f x = .ok y := by
  rw [mapM_eq_ok_iff] at h
  induction h with
  | nil => simp at hx
  | @cons x' y xs ys' hy _ ih =>
    rcases List.mem_cons.mp hx with rfl | hx
    · exact ⟨y, List.mem_cons_self, hy⟩
    · obtain ⟨y', hy', hfx⟩ := ih hx
      exact ⟨y', List.mem_cons_of_mem _ hy', hfx⟩

theorem of_mem_filterAuxM {p : α → Except ε Bool} {xs held ys : List α}
    (h : xs.filterAuxM p held = .ok ys) {y : α} (hy : y ∈ ys) : y ∈ held ∨ p y = .ok true := by
  induction xs generalizing held with
  | nil =>
    obtain rfl : held = ys := Except.ok.inj h
    exact .inl hy
  | cons x xs ih =>
    obtain ⟨answer, hanswer, h⟩ := bind_eq_ok_iff.mp h
    rcases ih h with hheld | hp
    · cases answer with
      | false => exact .inl hheld
      | true =>
        rcases List.mem_cons.mp hheld with rfl | hheld
        · exact .inr hanswer
        · exact .inl hheld
    · exact .inr hp

/-- What is left by a filter passed it. -/
theorem of_mem_filterM {p : α → Except ε Bool} {xs ys : List α} (h : xs.filterM p = .ok ys) {y : α}
    (hy : y ∈ ys) : p y = .ok true := by
  obtain ⟨reversed, hreversed, h⟩ := bind_eq_ok_iff.mp h
  obtain rfl := Except.ok.inj h
  exact (of_mem_filterAuxM hreversed (List.mem_reverse.mp hy)).resolve_left List.not_mem_nil

/-- Two computations agree on the members of a list, as far as a function tells, exactly if their
lists of results do. -/
theorem forall_map_eq_iff {γ : Type} {f f' : α → Except ε β} {g : β → γ} {xs : List α}
    {ys ys' : List β} (h : xs.mapM f = .ok ys) (h' : xs.mapM f' = .ok ys') :
    (∀ x ∈ xs, (f' x).map g = (f x).map g) ↔ ys'.map g = ys.map g := by
  rw [mapM_eq_ok_iff] at h h'
  induction h generalizing ys' with
  | nil =>
    cases h'
    simp
  | @cons x y xs ys hy _ ih =>
    obtain ⟨y', ys', hy', hys', rfl⟩ := List.forall₂_cons_left_iff.mp h'
    rw [List.forall_mem_cons, ih hys', List.map_cons, List.map_cons, List.cons.injEq, hy, hy']
    simp [Except.map]

end Except
