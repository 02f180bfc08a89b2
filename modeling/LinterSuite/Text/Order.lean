/-!
# Order of texts

Texts are ordered by their characters, and characters by their code points.

## Main definitions

* `Text.sorted`: some texts in order

## Main results

* `Text.sorted_perm`: sorting moves texts around and nothing else
* `Text.pairwise_sorted`: no text stands before a smaller one
-/

namespace LinterSuite.Text

/-- Texts in the order of their characters. -/
def sorted (texts : List String) : List String := texts.mergeSort (fun a b => decide (a ≤ b))

theorem sorted_perm (texts : List String) : (sorted texts).Perm texts := List.mergeSort_perm texts _

@[simp] theorem mem_sorted {s : String} {texts : List String} : s ∈ sorted texts ↔ s ∈ texts :=
  (sorted_perm texts).mem_iff

theorem pairwise_sorted (texts : List String) : (sorted texts).Pairwise (· ≤ ·) := by
  have trans : ∀ a b c : String, decide (a ≤ b) = true → decide (b ≤ c) = true →
      decide (a ≤ c) = true := fun a b c hab hbc =>
    decide_eq_true (String.le_trans (of_decide_eq_true hab) (of_decide_eq_true hbc))
  have total : ∀ a b : String, (decide (a ≤ b) || decide (b ≤ a)) = true := fun a b => by
    rcases String.le_total a b with h | h <;> simp [h]
  exact (List.pairwise_mergeSort trans total texts).imp fun hab => of_decide_eq_true hab

end LinterSuite.Text
