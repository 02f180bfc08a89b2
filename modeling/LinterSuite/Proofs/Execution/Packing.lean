import LinterSuite.Proofs.Execution.Batches
import Mathlib.Data.Int.Order.Basic
import Mathlib.Data.List.Chain

/-!
# The fewest batches

Files are put into the batch at hand as long as there is room. No other way to cut them into groups
that fit, in their order, has fewer groups: a batch that was begun later has more room left, so it
is never behind by more than the one that is still open.

## Main definitions

* `Arguments.space`: what files take on a command line
* `Arguments.Divides`: groups of files in order, each of which fits or is a single file

## Main results

* `Arguments.length_batchesFrom_append_le`: files that are cut somewhere need no fewer batches
* `Arguments.length_batches_le`: no division has fewer groups than there are batches
* `Arguments.isChain_batchesFrom`: neighbours do not fit together
* `Arguments.batches_optimal`: the batches are a division with the fewest groups
-/

namespace LinterSuite.Arguments

variable {budget : Int} {held held' files group : List String} {groups : List (List String)}
  {size size' : Nat}

/-- The bytes of some files, with nine more for each. -/
def space (files : List String) : Nat := (files.map fun file => Text.utf8Size file + 9).sum

theorem totalCost_eq_space (files : List String) : totalCost files = space files :=
  totalCost_eq_sum files

/-- Groups of files in their order. None is empty, and each fits or is a single file. -/
structure Divides (budget : Int) (files : List String) (groups : List (List String)) : Prop where
  inOrder : groups.flatten = files
  nonempty : ∀ group ∈ groups, group ≠ []
  fits : ∀ group ∈ groups, group.length = 1 ∨ (space group : Int) ≤ budget

theorem Divides.mono {larger : Int} (hle : budget ≤ larger) (h : Divides budget files groups) :
    Divides larger files groups :=
  ⟨h.inOrder, h.nonempty, fun group hgroup => (h.fits group hgroup).imp_right fun hfits =>
    hfits.trans hle⟩

theorem divides_batches (budget : Int) (files : List String) :
    Divides budget files (batches budget files) := by
  refine ⟨flatten_batches budget files, fun group hgroup => ne_nil_of_mem_batches hgroup,
    fun group hgroup => ?_⟩
  have hpos : 0 < group.length := List.length_pos_iff.mpr (ne_nil_of_mem_batches hgroup)
  rcases Nat.lt_or_ge 1 group.length with hmany | hone
  · right
    rw [← totalCost_eq_space]
    exact totalCost_le_of_mem_batches hgroup hmany
  · left
    omega

/-! ### Begun batches -/

theorem batchesFrom_of_cut (hheld : held ≠ []) {file : String}
    (hcut : budget < (size + cost file : Nat)) :
    batchesFrom budget held size (file :: files) =
      held.reverse :: batchesFrom budget [file] (cost file) files := by
  rw [batchesFrom, if_pos ⟨by simpa using hheld, hcut⟩]

theorem batchesFrom_of_room {file : String} (hroom : (size + cost file : Nat) ≤ budget) :
    batchesFrom budget held size (file :: files) =
      batchesFrom budget (file :: held) (size + cost file) files := by
  rw [batchesFrom, if_neg fun hcut => absurd hroom (not_le_of_gt hcut.2)]

/-- The first file of all begins a batch whether or not it fits. -/
theorem batches_cons (budget : Int) (file : String) (files : List String) :
    batches budget (file :: files) = batchesFrom budget [file] (cost file) files := by
  rw [batches, batchesFrom, if_neg (by simp), Nat.zero_add]

/-- A begun batch that takes less room needs no more batches for the same files, and one that takes
more room needs at most one more. Either may cut where the other does not: the one that did not cut
has less room from then on, but is one batch behind. -/
theorem length_batchesFrom_compare (budget : Int) (files : List String) (hheld : held ≠ [])
    (hheld' : held' ≠ []) :
    (size ≤ size' → (batchesFrom budget held size files).length ≤
      (batchesFrom budget held' size' files).length) ∧
    (batchesFrom budget held size files).length ≤
      (batchesFrom budget held' size' files).length + 1 := by
  induction files generalizing held held' size size' with
  | nil => simp [batchesFrom, hheld, hheld']
  | cons file files ih =>
    -- Each of the two may cut before this file or take it in.
    rcases lt_or_ge budget (size + cost file : Nat) with hcut | hroom <;>
      rcases lt_or_ge budget (size' + cost file : Nat) with hcut' | hroom'
    · rw [batchesFrom_of_cut hheld hcut, batchesFrom_of_cut hheld' hcut']
      simp
    · rw [batchesFrom_of_cut hheld hcut, batchesFrom_of_room hroom', List.length_cons]
      have hless : (batchesFrom budget [file] (cost file) files).length ≤
          (batchesFrom budget (file :: held') (size' + cost file) files).length :=
        (ih (by simp) (by simp)).1 (by omega)
      exact ⟨fun hle => by omega, by omega⟩
    · rw [batchesFrom_of_room hroom, batchesFrom_of_cut hheld' hcut', List.length_cons]
      have hmore : (batchesFrom budget (file :: held) (size + cost file) files).length ≤
          (batchesFrom budget [file] (cost file) files).length + 1 :=
        (ih (by simp) (by simp)).2
      exact ⟨fun _ => by omega, by omega⟩
    · rw [batchesFrom_of_room hroom, batchesFrom_of_room hroom']
      have hcons : file :: held ≠ [] := by simp
      have hcons' : file :: held' ≠ [] := by simp
      exact ⟨fun hle => (ih hcons hcons').1 (by omega), (ih hcons hcons').2⟩

/-- Files behind a begun batch need at most one batch more than by themselves. -/
theorem length_batchesFrom_le_succ (budget : Int) (size : Nat) (files : List String)
    (hheld : held ≠ []) :
    (batchesFrom budget held size files).length ≤ (batches budget files).length + 1 := by
  cases files with
  | nil => simp [batchesFrom, hheld]
  | cons file files =>
    rw [batches_cons]
    rcases lt_or_ge budget (size + cost file : Nat) with hcut | hroom
    · rw [batchesFrom_of_cut hheld hcut, List.length_cons]
    · rw [batchesFrom_of_room hroom]
      exact (length_batchesFrom_compare budget files (by simp) (by simp)).2

/-- Files that are cut somewhere need no fewer batches. -/
theorem length_batchesFrom_append_le (hheld : held = [] → size = 0) (files others : List String) :
    (batchesFrom budget held size (files ++ others)).length ≤
      (batchesFrom budget held size files).length + (batches budget others).length := by
  induction files generalizing held size with
  | nil =>
    by_cases hempty : held = []
    · obtain rfl := hheld hempty
      subst hempty
      simp [batches]
    · rw [List.nil_append, Nat.add_comm]
      simpa [batchesFrom, hempty] using length_batchesFrom_le_succ budget size others hempty
  | cons file files ih =>
    rw [List.cons_append]
    rcases lt_or_ge budget (size + cost file : Nat) with hcut | hroom
    · by_cases hempty : held = []
      · obtain rfl := hheld hempty
        subst hempty
        -- Nothing is held, so the file is taken in though it does not fit.
        change (batches budget (file :: (files ++ others))).length ≤
          (batches budget (file :: files)).length + (batches budget others).length
        rw [batches_cons, batches_cons]
        exact ih (by simp)
      · rw [batchesFrom_of_cut hempty hcut, batchesFrom_of_cut hempty hcut, List.length_cons,
          List.length_cons]
        have hrest : (batchesFrom budget [file] (cost file) (files ++ others)).length ≤
            (batchesFrom budget [file] (cost file) files).length +
              (batches budget others).length := ih (by simp)
        omega
    · rw [batchesFrom_of_room hroom, batchesFrom_of_room hroom]
      exact ih (by simp)

theorem length_batches_append_le (files others : List String) :
    (batches budget (files ++ others)).length ≤
      (batches budget files).length + (batches budget others).length :=
  length_batchesFrom_append_le (fun _ => rfl) files others

/-! ### No division has fewer groups -/

/-- Files for which there is room behind a begun batch do not begin another one. -/
theorem length_batchesFrom_le_one (hroom : (size + totalCost files : Nat) ≤ budget) :
    (batchesFrom budget held size files).length ≤ 1 := by
  induction files generalizing held size with
  | nil => by_cases hheld : held = [] <;> simp [batchesFrom, hheld]
  | cons file files ih =>
    rw [totalCost_cons] at hroom
    rw [batchesFrom_of_room (by omega)]
    exact ih (by omega)

theorem length_batches_le_one (hfits : group.length = 1 ∨ (space group : Int) ≤ budget) :
    (batches budget group).length ≤ 1 := by
  rcases hfits with hone | hroom
  · obtain ⟨file, rfl⟩ := List.length_eq_one_iff.mp hone
    simp [batches_cons, batchesFrom]
  · refine length_batchesFrom_le_one ?_
    rwa [Nat.zero_add, totalCost_eq_space]

theorem length_batches_le (h : Divides budget files groups) :
    (batches budget files).length ≤ groups.length := by
  obtain ⟨rfl, -, hfits⟩ := h
  induction groups with
  | nil => simp
  | cons group groups ih =>
    obtain ⟨hgroup, hgroups⟩ := List.forall_mem_cons.mp hfits
    rw [List.flatten_cons, List.length_cons]
    -- A group by itself is one batch, so each group adds at most one.
    have happend : (batches budget (group ++ groups.flatten)).length ≤
        (batches budget group).length + (batches budget groups.flatten).length :=
      length_batches_append_le group groups.flatten
    have hone := length_batches_le_one hgroup
    have hrest := ih hgroups
    omega

/-! ### Neighbours -/

/-- The first batch goes on with what is held. -/
theorem held_prefix_of_head? (hheld : held ≠ []) {batch : List String}
    (h : (batchesFrom budget held size files).head? = some batch) : held.reverse <+: batch := by
  fun_induction batchesFrom budget held size files with
  | case1 held size hempty => exact absurd (List.isEmpty_iff.mp hempty) hheld
  | case2 held size hne =>
    obtain rfl := Option.some.inj h
    exact List.prefix_rfl
  | case3 held size file files hcut ih =>
    obtain rfl := Option.some.inj h
    exact List.prefix_rfl
  | case4 held size file files hroom ih =>
    rw [List.reverse_cons] at ih
    exact (List.prefix_append _ _).trans (ih (by simp) h)

/-- A batch ends where the next file does not fit, so it does not fit together with the next
batch. -/
theorem isChain_batchesFrom (hsize : size = totalCost held) :
    (batchesFrom budget held size files).IsChain
      fun first second => budget < (totalCost (first ++ second) : Nat) := by
  fun_induction batchesFrom budget held size files with
  | case1 => exact .nil
  | case2 held size => exact .singleton _
  | case3 held size file files hcut ih =>
    refine List.isChain_cons.mpr ⟨fun batch hbatch => ?_, ih rfl⟩
    -- The next batch begins with the file that did not fit.
    obtain ⟨rest, rfl⟩ := held_prefix_of_head? (List.cons_ne_nil file []) hbatch
    have hlarge := hcut.2
    rw [hsize] at hlarge
    rw [totalCost_append, totalCost_reverse, totalCost_append, totalCost_reverse, totalCost_cons]
    omega
  | case4 held size file files hroom ih =>
    exact ih (by rw [hsize, totalCost_cons, Nat.add_comm])

/-- The batches of some files are a division of them, and no other division has fewer groups. So
more room never takes more batches, and no two neighbours fit together. -/
theorem batches_optimal (budget : Int) (files : List String) :
    Divides budget files (batches budget files) ∧
    (∀ groups, Divides budget files groups → (batches budget files).length ≤ groups.length) ∧
    (∀ larger, budget ≤ larger →
      (batches larger files).length ≤ (batches budget files).length) ∧
    ∀ first second, [first, second] <:+: batches budget files →
      budget < (space (first ++ second) : Int) := by
  refine ⟨divides_batches budget files, fun groups => length_batches_le, fun larger hle => ?_,
    fun first second hnext => ?_⟩
  · exact length_batches_le ((divides_batches budget files).mono hle)
  · have hchain : (batches budget files).IsChain
        fun first second => budget < (totalCost (first ++ second) : Nat) :=
      isChain_batchesFrom rfl
    have hpair := List.IsChain.infix hchain hnext
    rw [← totalCost_eq_space]
    exact (List.isChain_cons_cons.mp hpair).1

/-- A file that fits nowhere, between files that fit in pairs. -/
theorem batches_optimal_oversized :
    let files := ["a", "bb", "much-too-long", "c", "d"]
    batches 21 files = [["a", "bb"], ["much-too-long"], ["c", "d"]] ∧
      Divides 21 files [["a"], ["bb"], ["much-too-long"], ["c"], ["d"]] ∧
      (batches 21 files).length ≤ 5 ∧ (batches 21 files).length ≤ (batches (-1) files).length ∧
      (21 : Int) < space ["a", "bb", "much-too-long"] := by
  intro files
  have hbatches : batches 21 files = [["a", "bb"], ["much-too-long"], ["c", "d"]] := by decide
  have hdivides : Divides 21 files [["a"], ["bb"], ["much-too-long"], ["c"], ["d"]] :=
    ⟨rfl, by simp, by simp⟩
  obtain ⟨-, hfewest, -, hneighbours⟩ := batches_optimal 21 files
  refine ⟨hbatches, hdivides, hfewest _ hdivides, (batches_optimal (-1) files).2.2.1 21 (by decide),
    hneighbours ["a", "bb"] ["much-too-long"] ?_⟩
  rw [hbatches]
  exact (List.prefix_append _ [["c", "d"]]).isInfix

end LinterSuite.Arguments
