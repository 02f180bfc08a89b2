/-!
# Pieces of a text between separators

## Main definitions

* `Text.pieces`: the pieces between the occurrences of a character

## Main results

* `Text.pieces_ne_nil`: there is always a piece
* `Text.intercalate_pieces`: putting the separators back gives the text
* `Text.not_mem_of_mem_pieces`: no piece holds the separator
-/

namespace LinterSuite.Text

/-- The pieces of a text between separators; an empty text has one empty piece. -/
def pieces (separator : Char) : List Char → List (List Char)
  | [] => [[]]
  | c :: cs =>
    if c = separator then [] :: pieces separator cs
    else match pieces separator cs with
      | [] => [[c]]
      | first :: rest => (c :: first) :: rest

theorem pieces_ne_nil (separator : Char) (cs : List Char) : pieces separator cs ≠ [] := by
  cases cs with
  | nil => simp [pieces]
  | cons c cs =>
    unfold pieces
    split
    · simp
    · split <;> simp

theorem intercalate_pieces (separator : Char) (cs : List Char) :
    [separator].intercalate (pieces separator cs) = cs := by
  induction cs with
  | nil => simp [pieces, List.intercalate]
  | cons c cs ih =>
    unfold pieces
    cases h : pieces separator cs with
    | nil => exact absurd h (pieces_ne_nil _ _)
    | cons first rest =>
      rw [h] at ih
      split
      · next heq =>
        simp only [List.intercalate, List.intersperse, List.flatten_cons] at ih ⊢
        simp [ih, heq]
      · cases rest <;> simp_all [List.intercalate, List.intersperse]

theorem not_mem_of_mem_pieces {separator : Char} {cs piece : List Char}
    (h : piece ∈ pieces separator cs) : separator ∉ piece := by
  induction cs generalizing piece with
  | nil => simp_all [pieces]
  | cons c cs ih =>
    unfold pieces at h
    split at h
    · rcases List.mem_cons.1 h with rfl | h
      · simp
      · exact ih h
    · next hc =>
      cases hp : pieces separator cs with
      | nil => exact absurd hp (pieces_ne_nil _ _)
      | cons first rest =>
        rw [hp] at h
        rcases List.mem_cons.1 h with rfl | h
        · simp [Ne.symm hc, ih (hp ▸ List.mem_cons_self)]
        · exact ih (hp ▸ List.mem_cons_of_mem _ h)

end LinterSuite.Text
