import LinterSuite.Text.Lines
import Mathlib.Data.List.Chain

/-!
# Lines of texts that are joined

Where one text is put behind another, the last line of the first may run on into the first line of
the second. Then there is a line less than there were. Otherwise the lines stay what they were.

## Main definitions

* `Text.EndsLine`: a text that ends where a line ends, also with another text behind it
* `Text.KeepApart`: texts whose lines do not run on into each other

## Main results

* `Text.linesFrom_append_of_endsLine`, `Text.length_linesFrom_append`: the lines of two texts
* `Text.lines_join_iff`: the lines of texts that are joined are their own lines exactly if the texts
  keep apart
-/

namespace LinterSuite.Text

variable {held held' xs ys : List Char} {c : Char}

/-! ### One step -/

@[simp] theorem linesFrom_nil : linesFrom [] [] = [] := rfl

theorem linesFrom_of_break (hc : isLineBreak c = true)
    (hpair : ¬ (c = '\r' ∧ xs.head? = some '\n')) :
    linesFrom held (c :: xs) = held.reverse :: linesFrom [] xs := by
  rw [linesFrom, if_pos hc]
  rintro rest rfl rfl
  exact hpair ⟨rfl, rfl⟩

theorem linesFrom_of_not_break (hc : isLineBreak c = false) :
    linesFrom held (c :: xs) = linesFrom (c :: held) xs := by
  rw [linesFrom, if_neg (by simp [hc])]
  rintro rest rfl -
  exact absurd hc (by decide)

/-- What the current line holds already does not change how many lines a text has. -/
theorem length_linesFrom_congr (hne : xs ≠ []) (held held' : List Char) :
    (linesFrom held xs).length = (linesFrom held' xs).length := by
  fun_induction linesFrom held xs generalizing held' with
  | case1 | case2 => exact absurd rfl hne
  | case3 held rest ih => simp [linesFrom]
  | case4 held c rest hpair hc ih =>
    rw [linesFrom_of_break hc]
    · simp
    · rintro ⟨rfl, hhead⟩
      obtain ⟨rest', rfl⟩ := List.head?_eq_some_iff.mp hhead
      exact hpair rest' rfl rfl
  | case5 held c rest hpair hc ih =>
    rw [linesFrom_of_not_break (by simpa using hc)]
    by_cases hrest : rest = []
    · subst hrest
      simp [linesFrom]
    · exact ih hrest _

/-! ### Two texts -/

/-- A text that ends where a line ends, also with another text behind it: it ends in a line break,
and the other text does not complete a carriage return at its end. -/
def EndsLine (first second : List Char) : Prop :=
  ∃ c, first.getLast? = some c ∧ isLineBreak c = true ∧ ¬ (c = '\r' ∧ second.head? = some '\n')

theorem endsLine_singleton :
    EndsLine [c] ys ↔ isLineBreak c = true ∧ ¬ (c = '\r' ∧ ys.head? = some '\n') := by
  simp [EndsLine]

theorem endsLine_cons (hne : xs ≠ []) : EndsLine (c :: xs) ys ↔ EndsLine xs ys := by
  obtain ⟨d, xs, rfl⟩ := List.exists_cons_of_ne_nil hne
  rw [EndsLine, EndsLine, List.getLast?_cons_cons]

/-- A carriage return that no line feed follows is not completed by another text either, unless it
is the last character. -/
theorem not_pair_append (hne : xs ≠ []) (hpair : ∀ rest, c = '\r' → xs = '\n' :: rest → False)
    (ys : List Char) : ¬ (c = '\r' ∧ (xs ++ ys).head? = some '\n') := by
  rintro ⟨hc, hhead⟩
  rw [List.head?_append_of_ne_nil _ hne] at hhead
  obtain ⟨rest, hrest⟩ := List.head?_eq_some_iff.mp hhead
  exact hpair rest hc hrest

/-- If the first of two texts ends where a line ends, the lines are those of both. -/
theorem linesFrom_append_of_endsLine (h : EndsLine xs ys) :
    linesFrom held (xs ++ ys) = linesFrom held xs ++ linesFrom [] ys := by
  fun_induction linesFrom held xs with
  | case1 | case2 => simp [EndsLine] at h
  | case3 held rest ih =>
    rw [List.cons_append, List.cons_append, linesFrom]
    by_cases hrest : rest = []
    · subst hrest
      rfl
    · rw [ih ((endsLine_cons hrest).mp ((endsLine_cons (by simp)).mp h)), List.cons_append]
  | case4 held c rest hpair hc ih =>
    rw [List.cons_append]
    by_cases hrest : rest = []
    · subst hrest
      rw [List.nil_append, linesFrom_of_break hc (endsLine_singleton.mp h).2]
      rfl
    · rw [linesFrom_of_break hc (not_pair_append hrest hpair ys),
        ih ((endsLine_cons hrest).mp h), List.cons_append]
  | case5 held c rest hpair hc ih =>
    have hrest : rest ≠ [] := by
      rintro rfl
      exact hc (endsLine_singleton.mp h).1
    rw [List.cons_append, linesFrom_of_not_break (by simpa using hc),
      ih ((endsLine_cons hrest).mp h)]

/-- If it does not, two of the lines are one. -/
theorem length_linesFrom_append (hxs : xs ≠ []) (hys : ys ≠ []) (h : ¬ EndsLine xs ys) :
    (linesFrom held (xs ++ ys)).length + 1 =
      (linesFrom held xs).length + (linesFrom [] ys).length := by
  fun_induction linesFrom held xs with
  | case1 | case2 => exact absurd rfl hxs
  | case3 held rest ih =>
    have hrest : rest ≠ [] := by
      rintro rfl
      exact h ⟨'\n', rfl, by decide, by simp⟩
    rw [endsLine_cons (by simp), endsLine_cons hrest] at h
    rw [List.cons_append, List.cons_append, linesFrom, List.length_cons, List.length_cons,
      ih hrest h]
    omega
  | case4 held c rest hpair hc ih =>
    rw [List.cons_append]
    by_cases hrest : rest = []
    · -- A carriage return at the end, which the other text completes.
      subst hrest
      rw [endsLine_singleton, not_and, not_not] at h
      obtain ⟨rfl, hhead⟩ := h hc
      obtain ⟨rest', rfl⟩ := List.head?_eq_some_iff.mp hhead
      have hpair : linesFrom held ('\r' :: '\n' :: rest') = held.reverse :: linesFrom [] rest' := by
        rw [linesFrom]
      have hfeed : linesFrom [] ('\n' :: rest') = [] :: linesFrom [] rest' :=
        linesFrom_of_break (by decide) (by simp)
      rw [List.nil_append, hpair, hfeed]
      simp [Nat.add_comm]
    · rw [endsLine_cons hrest] at h
      rw [linesFrom_of_break hc (not_pair_append hrest hpair ys), List.length_cons,
        List.length_cons, ih hrest h]
      omega
  | case5 held c rest hpair hc ih =>
    rw [List.cons_append, linesFrom_of_not_break (by simpa using hc)]
    by_cases hrest : rest = []
    · -- The line at the end is not closed, and the other text goes on with it.
      subst hrest
      rw [List.nil_append, length_linesFrom_congr hys (c :: held) []]
      simp [linesFrom, Nat.add_comm]
    · exact ih hrest (by rwa [endsLine_cons hrest] at h)

/-! ### Many texts -/

/-- Texts whose lines do not run on into each other: every one of them ends where a line ends, also
with the next text behind it. Empty texts do not count, and the last need not end a line. -/
def KeepApart (texts : List String) : Prop :=
  ((texts.map String.toList).filter (· ≠ [])).IsChain EndsLine

theorem length_linesFrom_append_le (xs ys : List Char) :
    (linesFrom [] (xs ++ ys)).length ≤ (linesFrom [] xs).length + (linesFrom [] ys).length := by
  by_cases hxs : xs = []
  · simp [hxs]
  by_cases hys : ys = []
  · simp [hys]
  by_cases h : EndsLine xs ys
  · rw [linesFrom_append_of_endsLine h, List.length_append]
  · exact Nat.le_of_succ_le (length_linesFrom_append hxs hys h).le

/-- Joining texts adds no lines. -/
theorem length_linesFrom_flatten_le (chunks : List (List Char)) :
    (linesFrom [] chunks.flatten).length ≤ (chunks.flatMap (linesFrom [])).length := by
  induction chunks with
  | nil => simp
  | cons xs chunks ih =>
    rw [List.flatten_cons, List.flatMap_cons, List.length_append]
    exact (length_linesFrom_append_le xs _).trans (Nat.add_le_add_left ih _)

/-- Where a text ends depends only on how the next text begins. -/
theorem endsLine_append (hne : ys ≠ []) (zs : List Char) :
    EndsLine xs (ys ++ zs) ↔ EndsLine xs ys := by
  rw [EndsLine, EndsLine, List.head?_append_of_ne_nil _ hne]

/-- Texts that are not empty keep apart exactly if joining them leaves their lines as they are. If
the lines of one ran on into the next, there would be fewer of them. -/
theorem linesFrom_flatten_iff {chunks : List (List Char)} (hne : ∀ xs ∈ chunks, xs ≠ []) :
    linesFrom [] chunks.flatten = chunks.flatMap (linesFrom []) ↔ chunks.IsChain EndsLine := by
  induction chunks with
  | nil => simp
  | cons xs chunks ih =>
    obtain ⟨hxs, hchunks⟩ := List.forall_mem_cons.mp hne
    cases chunks with
    | nil => simp
    | cons ys chunks =>
      have hys : ys ≠ [] := hchunks ys List.mem_cons_self
      have hseam : EndsLine xs (ys :: chunks).flatten ↔ EndsLine xs ys := endsLine_append hys _
      rw [List.isChain_cons_cons, ← ih hchunks, ← hseam]
      change linesFrom [] (xs ++ (ys :: chunks).flatten) =
        linesFrom [] xs ++ (ys :: chunks).flatMap (linesFrom []) ↔ _
      constructor
      · intro heq
        have hends : EndsLine xs (ys :: chunks).flatten := by
          by_contra hends
          have hless : (linesFrom [] (xs ++ (ys :: chunks).flatten)).length + 1 =
              (linesFrom [] xs).length + (linesFrom [] (ys :: chunks).flatten).length :=
            length_linesFrom_append hxs (by simp [hys]) hends
          have hmost := length_linesFrom_flatten_le (ys :: chunks)
          have hlength := congrArg List.length heq
          rw [List.length_append] at hlength
          omega
        rw [linesFrom_append_of_endsLine hends] at heq
        exact ⟨hends, List.append_cancel_left heq⟩
      · rintro ⟨hends, heq⟩
        rw [linesFrom_append_of_endsLine hends, heq]

/-- Empty lists may be left out where they come to nothing. -/
theorem flatMap_filter_ne_nil {α β : Type} [DecidableEq α] {f : List α → List β} (hf : f [] = [])
    (xss : List (List α)) : (xss.filter (· ≠ [])).flatMap f = xss.flatMap f := by
  induction xss with
  | nil => rfl
  | cons xs xss ih => by_cases hxs : xs = [] <;> simp_all

/-- The lines of texts that are joined are their own lines exactly if the texts keep apart. -/
theorem lines_join_iff (texts : List String) :
    lines (String.join texts) = texts.flatMap lines ↔ KeepApart texts := by
  have hjoin : (String.join texts).toList = (texts.map String.toList).flatten := by
    rw [String.toList_join, List.flatMap_def]
  have hown : texts.flatMap lines =
      ((texts.map String.toList).flatMap (linesFrom [])).map String.ofList := by
    rw [List.map_flatMap, List.flatMap_map]
    rfl
  have hinj : Function.Injective (List.map String.ofList) :=
    List.map_injective_iff.mpr fun _ _ => String.ofList_injective
  rw [lines, hjoin, hown, hinj.eq_iff, KeepApart, ← List.flatten_filter_ne_nil,
    ← flatMap_filter_ne_nil linesFrom_nil]
  exact linesFrom_flatten_iff fun xs hxs => of_decide_eq_true (List.mem_filter.mp hxs).2

end LinterSuite.Text
