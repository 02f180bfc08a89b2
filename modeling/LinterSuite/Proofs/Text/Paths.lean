import LinterSuite.Path
import LinterSuite.Proofs.Fallible
import LinterSuite.Proofs.Text.Separators

/-!
# Texts of paths

A path is written as a text from which the same path is read, unless it has components that no text
has: empty ones, dots, or such with a separator in them.

## Main definitions

* `Path.IsRead`: a path that can be read from a text

## Main results

* `Path.isAbsolute_ofString_iff`: an absolute path begins with a separator
* `Path.ofString_toString`: what is written of a path is read as that path
* `Path.isRead_iff_exists`: the paths that can be read are those that are read from some text
-/

namespace LinterSuite.Path

variable {p q : Path}

/-- A path whose components are such as a text has them. -/
def IsRead (p : Path) : Prop := ∀ part ∈ p.parts, part ≠ "" ∧ part ≠ "." ∧ '/' ∉ part.toList

/-- A path that has components is written as they are, behind its root. -/
theorem toString_of_ne_nil (h : p.parts ≠ []) :
    p.toString = p.anchor.text ++ "/".intercalate p.parts := by
  unfold toString
  split
  · next heq => exact absurd heq h
  · rfl

theorem isAbsolute_ofString_iff {text : String} :
    (ofString text).isAbsolute ↔ text.toList.head? = some '/' := by
  unfold ofString isAbsolute
  rcases text.toList with _ | ⟨c, cs⟩
  · simp
  · by_cases hc : c = '/'
    · subst hc
      rcases hlength : (cs.takeWhile (· == '/')).length with _ | _ | n <;> simp [hlength]
    · simp [hc]

theorem isAbsolute_join_iff : (p.join q).isAbsolute ↔ p.isAbsolute ∨ q.isAbsolute := by
  unfold join
  split
  · next hq => simp [hq]
  · next hq => exact ⟨.inl, fun h => h.resolve_right hq⟩

/-! ### Paths that can be read -/

theorem isRead_ofString (text : String) : (ofString text).IsRead := by
  intro part hpart
  obtain ⟨piece, hpiece, rfl⟩ := List.mem_map.mp hpart
  obtain ⟨hmem, hsays⟩ := List.mem_filter.mp hpiece
  obtain ⟨hempty, hdot⟩ : piece ≠ [] ∧ piece ≠ ['.'] := by simpa using hsays
  refine ⟨fun h => hempty ?_, fun h => hdot ?_, ?_⟩
  · simpa using congrArg String.toList h
  · simpa using congrArg String.toList h
  · simpa using Text.not_mem_of_mem_pieces hmem

theorem IsRead.join (hp : p.IsRead) (hq : q.IsRead) : (p.join q).IsRead := by
  unfold Path.join
  split
  · exact hq
  · exact fun part hpart => (List.mem_append.mp hpart).elim (hp part) (hq part)

/-- What stands for a home directory is read from the text of that directory. -/
theorem IsRead.expandHome {homes : Homes} (hp : p.IsRead) (h : p.expandHome homes = .ok q) :
    q.IsRead := by
  unfold Path.expandHome at h
  split at h
  · next first rest _ hparts =>
    split at h
    · obtain ⟨home, -, rfl⟩ := Except.map_eq_ok_iff.mp h
      intro part hpart
      rcases List.mem_append.mp hpart with hpart | hpart
      · exact isRead_ofString home part hpart
      · exact hp part (by simp [hparts, hpart])
    · obtain rfl := Except.ok.inj h
      exact hp
  · obtain rfl := Except.ok.inj h
    exact hp

/-! ### Reading what was written -/

@[simp] theorem components_separator (cs : List Char) : components ('/' :: cs) = components cs := by
  simp [components, Text.pieces]

/-- The separators in front of a text make the root. -/
theorem ofString_append (anchor : Anchor) {rest : String} (h : rest.toList.head? ≠ some '/') :
    ofString (anchor.text ++ rest) = ⟨anchor, components rest.toList⟩ := by
  have hnone : rest.toList.takeWhile (· == '/') = [] := by
    cases hrest : rest.toList with
    | nil => rfl
    | cons c cs =>
      have hc : c ≠ '/' := by simpa [hrest] using h
      simp [hc]
  cases anchor <;> simp [ofString, Anchor.text, hnone]

/-- What is written of a path is read as that path. -/
theorem ofString_toString (h : p.IsRead) : ofString p.toString = p := by
  obtain ⟨anchor, parts⟩ := p
  by_cases hne : parts = []
  · subst hne
    cases anchor <;> rfl
  · have hpieces : Text.pieces '/' ("/".intercalate parts).toList = parts.map String.toList := by
      rw [String.toList_intercalate]
      exact Text.pieces_intercalate (by simpa using hne) (by simpa using fun part hpart =>
        (h part hpart).2.2)
    have hhead : ("/".intercalate parts).toList.head? ≠ some '/' := by
      intro hhead
      obtain ⟨cs, hcs⟩ := List.head?_eq_some_iff.mp hhead
      -- The first of the pieces would be empty.
      rw [hcs, Text.pieces, if_pos rfl] at hpieces
      obtain ⟨part, hpart, hempty⟩ := List.mem_map.mp (hpieces ▸ List.mem_cons_self)
      exact (h part hpart).1 (String.toList_injective hempty)
    have hparts : components ("/".intercalate parts).toList = parts := by
      rw [components, hpieces, List.filter_eq_self.mpr]
      · simp
      · intro piece hpiece
        obtain ⟨part, hpart, rfl⟩ := List.mem_map.mp hpiece
        have hempty : part.toList ≠ [] := fun hnil =>
          (h part hpart).1 (String.toList_injective hnil)
        have hdot : part.toList ≠ ['.'] := fun hdot =>
          (h part hpart).2.1 (String.toList_injective hdot)
        simp [hempty, hdot]
    rw [toString_of_ne_nil hne, ofString_append anchor hhead, hparts]

theorem isRead_iff_exists : p.IsRead ↔ ∃ text, ofString text = p :=
  ⟨fun h => ⟨_, ofString_toString h⟩, fun ⟨text, htext⟩ => htext ▸ isRead_ofString text⟩

end LinterSuite.Path
