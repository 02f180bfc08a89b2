import LinterSuite.Text.Pieces

/-!
# Texts between separators

A part without separators ends at the first separator behind it, so parts that were joined are told
apart again.

## Main results

* `append_cons_inj`: what stands in front of the first separator, and what behind it
* `mem_or_mem_of_mem_intercalate`: what is in a joined list
* `Text.pieces_intercalate`: parts without separators are the pieces of the text that they make
* `Text.intercalate_eq_append_cons_iff`: the first part of a joined text
-/

namespace LinterSuite

/-- Two lists agree in front of the first separator and behind it. -/
theorem append_cons_inj {α : Type} {a : α} {xs ys rest rest' : List α} (hx : a ∉ xs) (hy : a ∉ ys)
    (h : xs ++ a :: rest = ys ++ a :: rest') : xs = ys ∧ rest = rest' := by
  induction xs generalizing ys with
  | nil =>
    cases ys with
    | nil => exact ⟨rfl, (List.cons.inj h).2⟩
    | cons y ys =>
      obtain ⟨rfl, -⟩ := List.cons.inj h
      exact absurd List.mem_cons_self hy
  | cons x xs ih =>
    obtain ⟨hxne, hx⟩ := not_or.mp (mt List.mem_cons.mpr hx)
    cases ys with
    | nil => exact absurd (List.cons.inj h).1.symm hxne
    | cons y ys =>
      obtain ⟨rfl, hbehind⟩ := List.cons.inj h
      obtain ⟨rfl, hrest⟩ := ih hx (mt (List.mem_cons_of_mem _) hy) hbehind
      exact ⟨rfl, hrest⟩

/-- A front part holds only what is admitted if it ends before the first character that is not. -/
theorem le_length_takeWhile_iff {α : Type} {f : α → Bool} {xs : List α} {n : Nat} :
    n ≤ (xs.takeWhile f).length ↔ n ≤ xs.length ∧ ∀ x ∈ xs.take n, f x := by
  induction xs generalizing n with
  | nil => simp
  | cons x xs ih =>
    cases n with
    | zero => simp
    | succ n =>
      by_cases hx : f x
      · simp [hx, ih]
      · simp [hx]

/-- What is in a joined list is in the separator or in one of the parts. -/
theorem mem_or_mem_of_mem_intercalate {α : Type} {a : α} {separator : List α}
    {parts : List (List α)} (h : a ∈ separator.intercalate parts) :
    a ∈ separator ∨ ∃ part ∈ parts, a ∈ part := by
  induction parts with
  | nil => simp at h
  | cons first parts ih =>
    cases parts with
    | nil => exact .inr ⟨first, by simp, by simpa using h⟩
    | cons second parts =>
      rw [List.intercalate_cons_cons, List.append_assoc, List.mem_append, List.mem_append] at h
      rcases h with h | h | h
      · exact .inr ⟨first, List.mem_cons_self, h⟩
      · exact .inl h
      · rcases ih h with h | ⟨part, hpart, h⟩
        · exact .inl h
        · exact .inr ⟨part, List.mem_cons_of_mem _ hpart, h⟩

/-- What is in one of the parts is in the joined list. -/
theorem mem_intercalate_of_mem {α : Type} {a : α} {part : List α} (separator : List α)
    {parts : List (List α)} (hpart : part ∈ parts) (ha : a ∈ part) :
    a ∈ separator.intercalate parts := by
  induction parts with
  | nil => exact absurd hpart List.not_mem_nil
  | cons first parts ih =>
    cases parts with
    | nil =>
      obtain rfl := List.mem_singleton.mp hpart
      simpa using ha
    | cons second parts =>
      rw [List.intercalate_cons_cons, List.append_assoc, List.mem_append, List.mem_append]
      rcases List.mem_cons.mp hpart with rfl | hpart
      · exact .inl ha
      · exact .inr (.inr (ih hpart))

/-- What stands behind each separator may as well stand in front of each member. -/
theorem cons_intercalate {α : Type} (x y : α) {xss : List (List α)} (h : xss ≠ []) :
    x :: [y, x].intercalate xss = [y].intercalate (xss.map (x :: ·)) := by
  induction xss with
  | nil => exact absurd rfl h
  | cons xs xss ih =>
    cases xss with
    | nil => simp
    | cons xs' xss =>
      rw [List.map_cons, List.map_cons, List.intercalate_cons_cons, List.intercalate_cons_cons,
        ← List.map_cons, ← ih (by simp)]
      simp

namespace Text

theorem pieces_append {separator : Char} {first : List Char} (h : separator ∉ first)
    (rest : List Char) :
    pieces separator (first ++ separator :: rest) = first :: pieces separator rest := by
  induction first with
  | nil => simp [pieces]
  | cons c first ih =>
    obtain ⟨hc, hfirst⟩ : separator ≠ c ∧ separator ∉ first := by simpa using h
    simp [pieces, Ne.symm hc, ih hfirst]

theorem pieces_of_not_mem {separator : Char} {cs : List Char} (h : separator ∉ cs) :
    pieces separator cs = [cs] := by
  induction cs with
  | nil => rfl
  | cons c cs ih =>
    obtain ⟨hc, hcs⟩ : separator ≠ c ∧ separator ∉ cs := by simpa using h
    simp [pieces, Ne.symm hc, ih hcs]

theorem mem_of_mem_pieces {separator c : Char} {cs piece : List Char}
    (h : piece ∈ pieces separator cs) (hc : c ∈ piece) : c ∈ cs := by
  rw [← intercalate_pieces separator cs]
  exact mem_intercalate_of_mem _ h hc

theorem pieces_intercalate {separator : Char} {segments : List (List Char)}
    (hne : segments ≠ []) (h : ∀ s ∈ segments, separator ∉ s) :
    pieces separator ([separator].intercalate segments) = segments := by
  induction segments with
  | nil => exact absurd rfl hne
  | cons first rest ih =>
    have hfirst := h first List.mem_cons_self
    cases rest with
    | nil => simpa using pieces_of_not_mem hfirst
    | cons second rest =>
      rw [List.intercalate_cons_cons, List.append_assoc, List.singleton_append,
        pieces_append hfirst, ih (by simp) fun s hs => h s (List.mem_cons_of_mem _ hs)]

/-- What stands in front of the first separator of a joined text is its first part. -/
theorem intercalate_eq_append_cons_iff {separator : Char} {parts : List (List Char)}
    {first rest : List Char} (hne : parts ≠ []) (hparts : ∀ part ∈ parts, separator ∉ part)
    (hfirst : separator ∉ first) :
    [separator].intercalate parts = first ++ separator :: rest ↔
      ∃ more, parts = first :: more ∧ more ≠ [] ∧ [separator].intercalate more = rest := by
  constructor
  · intro h
    refine ⟨pieces separator rest, ?_, pieces_ne_nil _ _, intercalate_pieces _ _⟩
    rw [← pieces_intercalate hne hparts, h, pieces_append hfirst]
  · rintro ⟨more, rfl, hmore, rfl⟩
    obtain ⟨second, more, rfl⟩ := List.exists_cons_of_ne_nil hmore
    rw [List.intercalate_cons_cons, List.append_assoc, List.singleton_append]

end Text

end LinterSuite
