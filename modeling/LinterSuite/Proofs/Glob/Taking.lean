import LinterSuite.Glob.Scan
import LinterSuite.Proofs.Text.Separators
import Mathlib.Computability.Language

/-!
# What expressions take

The search for a way through a text prefers some ways to others and goes back where it cannot go on.
Whether there is a way does not depend on the preferences: an expression takes the texts of a
language, and two expressions one after the other take a text of the one language and behind it one
of the other.

## Main definitions

* `Scan.past`: the place behind some characters
* `Expression.Takes`: an expression takes the texts of a language
* `Glob.single`, `Single.runs`: one character of a kind, and several
* `Glob.unseparated`, `Glob.names`, `Glob.directory`: texts without a separator, and those of
  components

## Main results

* `Expression.Takes.append`, `Expression.Takes.sequence_append`: one after the other
* `Expression.Takes.repeated`: repetitions of what takes at least one character
* `Expression.takes_inComponent`, `Expression.takes_directories`: what the wildcards take
* `Expression.Takes.describes_iff`: the texts that an expression describes as a whole
-/

namespace LinterSuite

open scoped Computability

/-! ### Places in a text -/

namespace Scan

/-- The place behind some characters. -/
def past (s : Scan) (taken rest : List Char) : Scan := ⟨taken.reverse ++ s.before, rest, s.marks⟩

@[simp] theorem past_rest (s : Scan) (taken rest : List Char) : (s.past taken rest).rest = rest :=
  rfl

@[simp] theorem past_past (s : Scan) (taken more rest rest' : List Char) :
    (s.past taken rest).past more rest' = s.past (taken ++ more) rest' := by
  simp [past]

theorem step?_eq_some_iff {admits : Char → Bool} {s t : Scan} :
    s.step? admits = some t ↔ ∃ c rest, s.rest = c :: rest ∧ admits c ∧ t = s.past [c] rest := by
  unfold step?
  cases s.rest with
  | nil => simp
  | cons c rest =>
    by_cases hc : admits c
    · simp only [hc, if_true, Option.some.injEq]
      constructor
      · rintro rfl
        exact ⟨c, rest, rfl, hc, rfl⟩
      · rintro ⟨_, _, ⟨rfl, rfl⟩, -, rfl⟩
        rfl
    · simp only [hc, Bool.false_eq_true, if_false, reduceCtorEq, false_iff]
      rintro ⟨_, _, ⟨rfl, rfl⟩, hadmits, -⟩
      exact hc hadmits

/-- The places behind admitted characters, from the farthest to the nearest. -/
theorem reach_eq (admits : Char → Bool) (marks : List (Nat × GroupMark)) (reached : List Scan)
    (before rest : List Char) :
    reach admits marks none reached before rest =
      ((List.range (rest.takeWhile admits).length).map fun n =>
        Scan.past ⟨before, rest, marks⟩ (rest.take (n + 1)) (rest.drop (n + 1))).reverse ++
      reached := by
  induction rest generalizing reached before with
  | nil => simp [reach]
  | cons c rest ih =>
    by_cases hc : admits c
    · simp only [reach, hc, reduceCtorEq, decide_false, Bool.not_true, Bool.or_self,
        Bool.false_eq_true, if_false, Option.map_none, ih, List.takeWhile_cons_of_pos,
        List.length_cons, List.range_succ_eq_map, List.map_cons, List.reverse_cons,
        List.append_assoc, List.singleton_append, List.map_map]
      congr 2
      simp [past]
    · simp [reach, hc]

/-- The places that a run reaches are those behind enough admitted characters. -/
theorem mem_run_iff {admits : Char → Bool} {least : Nat} {s t : Scan} :
    t ∈ s.run admits least none ↔ ∃ taken rest, s.rest = taken ++ rest ∧
      (least ≤ taken.length ∧ ∀ c ∈ taken, admits c) ∧ t = s.past taken rest := by
  have hplaces : reach admits s.marks none [s] s.before s.rest =
      ((List.range ((s.rest.takeWhile admits).length + 1)).map fun n =>
        s.past (s.rest.take n) (s.rest.drop n)).reverse := by
    rw [reach_eq, List.range_succ_eq_map, List.map_cons, List.reverse_cons, List.map_map]
    rfl
  rw [run, hplaces]
  -- The nearest places, which come last, are behind too few characters.
  simp only [List.length_reverse, List.length_map, List.length_range, List.take_reverse,
    List.mem_reverse, List.mem_drop_iff_getElem, List.getElem_map, List.getElem_range]
  constructor
  · rintro ⟨n, hn, rfl⟩
    rw [Nat.add_comm] at hn
    obtain ⟨hlength, hall⟩ := le_length_takeWhile_iff.mp (Nat.lt_succ_iff.mp hn)
    refine ⟨_, _, (List.take_append_drop _ s.rest).symm, ⟨?_, hall⟩, rfl⟩
    rw [List.length_take, Nat.min_eq_left hlength]
    omega
  · rintro ⟨taken, rest, hrest, ⟨hleast, hall⟩, rfl⟩
    -- What was taken is among the first characters that are admitted.
    have hreached : taken.length ≤ (s.rest.takeWhile admits).length := by
      rw [le_length_takeWhile_iff, hrest, List.take_left, List.length_append]
      exact ⟨by omega, hall⟩
    refine ⟨taken.length - least, by omega, ?_⟩
    have hplace : (s.rest.takeWhile admits).length + 1 -
        ((s.rest.takeWhile admits).length + 1 - least) + (taken.length - least) =
          taken.length := by omega
    rw [hplace, hrest, List.take_left, List.drop_left]

end Scan

/-! ### Languages of expressions -/

/-- The texts of one character of a kind. -/
def Glob.single (p : Char → Prop) : Language Char := {cs | ∃ d, cs = [d] ∧ p d}

theorem Glob.mem_single {p : Char → Prop} {cs : List Char} :
    cs ∈ single p ↔ ∃ d, cs = [d] ∧ p d := Iff.rfl

theorem Glob.mem_single_mul {p : Char → Prop} {L : Language Char} {cs : List Char} :
    cs ∈ single p * L ↔ ∃ d rest, cs = d :: rest ∧ p d ∧ rest ∈ L := by
  constructor
  · rintro ⟨_, ⟨d, rfl, hd⟩, rest, hrest, rfl⟩
    exact ⟨d, rest, rfl, hd, hrest⟩
  · rintro ⟨d, rest, rfl, hd, hrest⟩
    exact ⟨[d], ⟨d, rfl, hd⟩, rest, hrest, rfl⟩

/-- The texts of characters of one kind, at least so many. -/
def Single.runs (c : Single) (least : Nat) : Language Char :=
  {cs | least ≤ cs.length ∧ ∀ d ∈ cs, c.admits d}

theorem Single.mem_runs {c : Single} {least : Nat} {cs : List Char} :
    cs ∈ c.runs least ↔ least ≤ cs.length ∧ ∀ d ∈ cs, c.admits d := Iff.rfl

/-- The texts without a separator. -/
def Glob.unseparated : Language Char := {cs | separator ∉ cs}

theorem Glob.mem_unseparated {cs : List Char} : cs ∈ unseparated ↔ separator ∉ cs := Iff.rfl

/-- The names of components. -/
def Glob.names : Language Char := {cs | cs ≠ [] ∧ separator ∉ cs}

theorem Glob.mem_names {cs : List Char} : cs ∈ names ↔ cs ≠ [] ∧ separator ∉ cs := Iff.rfl

/-- One component with the separator behind it. -/
def Glob.directory : Language Char := names * single (· = separator)

namespace Expression

/-- An expression takes the texts of a language and no others: from a place it leads to what follows
exactly if one of the texts stands there and leads to it. -/
def Takes (e : Expression) (L : Language Char) : Prop :=
  ∀ s onward, (e.first s onward).isSome ↔
    ∃ taken rest, s.rest = taken ++ rest ∧ taken ∈ L ∧ (onward (s.past taken rest)).isSome

variable {e a b : Expression} {es fs : List Expression} {L M : Language Char} {cs : List Char}

theorem takes_nothing : nothing.Takes 1 := by
  intro s onward
  simp only [first, Language.mem_one]
  constructor
  · intro h
    exact ⟨[], s.rest, rfl, rfl, h⟩
  · rintro ⟨_, rest, hrest, rfl, h⟩
    obtain rfl : s.rest = rest := hrest
    exact h

theorem takes_one (c : Single) : (one c).Takes (Glob.single (c.admits ·)) := by
  intro s onward
  rw [first, Option.isSome_iff_exists]
  simp only [Option.bind_eq_some_iff, Scan.step?_eq_some_iff, Glob.mem_single]
  constructor
  · rintro ⟨_, _, ⟨c, rest, hrest, hadmits, rfl⟩, h⟩
    exact ⟨[c], rest, hrest, ⟨c, rfl, hadmits⟩, Option.isSome_iff_exists.mpr ⟨_, h⟩⟩
  · rintro ⟨_, rest, hrest, ⟨c, rfl, hadmits⟩, h⟩
    obtain ⟨t, ht⟩ := Option.isSome_iff_exists.mp h
    exact ⟨t, _, ⟨c, rest, hrest, hadmits, rfl⟩, ht⟩

theorem Takes.congr (h : e.Takes L) (hLM : ∀ cs, cs ∈ L ↔ cs ∈ M) : e.Takes M := by
  obtain rfl : L = M := Set.ext hLM
  exact h

theorem takes_char (c : Char) : (one (.char c)).Takes (Glob.single (· = c)) := by
  refine (takes_one (.char c)).congr fun cs => ?_
  simp only [Glob.mem_single, Single.admits, beq_iff_eq]

/-- What is taken, and behind it what the next step takes from there on. -/
theorem Takes.isSome_first_iff (he : e.Takes L) {s : Scan} {next onward : Onward}
    (hnext : ∀ taken rest, s.rest = taken ++ rest → taken ∈ L →
      ((next (s.past taken rest)).isSome ↔ ∃ more rest', rest = more ++ rest' ∧ more ∈ M ∧
        (onward (s.past (taken ++ more) rest')).isSome)) :
    (e.first s next).isSome ↔ ∃ taken rest, s.rest = taken ++ rest ∧ taken ∈ L * M ∧
      (onward (s.past taken rest)).isSome := by
  rw [he]
  constructor
  · rintro ⟨taken, rest, hrest, htaken, h⟩
    obtain ⟨more, rest', rfl, hmore, h⟩ := (hnext taken rest hrest htaken).mp h
    exact ⟨taken ++ more, rest', by rw [hrest, List.append_assoc],
      Language.append_mem_mul htaken hmore, h⟩
  · rintro ⟨_, rest, hrest, hmem, h⟩
    obtain ⟨taken, htaken, more, hmore, rfl⟩ := Language.mem_mul.mp hmem
    rw [List.append_assoc] at hrest
    exact ⟨taken, more ++ rest, hrest, htaken,
      (hnext taken _ hrest htaken).mpr ⟨more, rest, rfl, hmore, h⟩⟩

/-- Two expressions take a text of the first language and behind it one of the second. -/
theorem Takes.append (ha : a.Takes L) (hb : b.Takes M) : (both a b).Takes (L * M) := by
  intro s onward
  rw [first_both]
  refine ha.isSome_first_iff fun taken rest _ _ => ?_
  simp only [hb _ _, Scan.past_rest, Scan.past_past]

/-- Characters of one kind, at least so many. -/
theorem takes_run (c : Single) (least : Nat) :
    (repeated (one c) least none .greedy).Takes (c.runs least) := by
  intro s onward
  rw [first, List.findSome?_isSome_iff]
  constructor
  · rintro ⟨t, ht, h⟩
    obtain ⟨taken, rest, hrest, hrun, rfl⟩ := Scan.mem_run_iff.mp ht
    exact ⟨taken, rest, hrest, hrun, h⟩
  · rintro ⟨taken, rest, hrest, hrun, h⟩
    exact ⟨_, Scan.mem_run_iff.mpr ⟨taken, rest, hrest, hrun, rfl⟩, h⟩

/-- Texts taken over and over, when each has at least one character: with more steps to spare than
there are characters left, the search does not give up before its time. -/
theorem isSome_repeatFirst_iff (he : e.Takes L) (hL : [] ∉ L) {fuel : Nat} {s : Scan}
    {onward : Onward} (hfuel : s.rest.length < fuel) :
    (repeatFirst e.first false fuel 0 none s onward).isSome ↔
      ∃ taken rest, s.rest = taken ++ rest ∧ taken ∈ L∗ ∧ (onward (s.past taken rest)).isSome := by
  induction fuel generalizing s with
  | zero => exact absurd hfuel (Nat.not_lt_zero _)
  | succ fuel ih =>
    let again : Onward := fun t =>
      if t.rest.length = s.rest.length then onward t
      else repeatFirst e.first false fuel 0 none t onward
    have hstep : repeatFirst e.first false (fuel + 1) 0 none s onward =
        (e.first s again).or (onward s) := by
      simp [repeatFirst, again, Option.orElse_eq_or]
    have hagain : (e.first s again).isSome ↔ ∃ taken rest, s.rest = taken ++ rest ∧
        taken ∈ L * L∗ ∧ (onward (s.past taken rest)).isSome := by
      refine he.isSome_first_iff fun taken rest hrest htaken => ?_
      -- Something was taken, so that fewer characters are left than there are steps.
      have hpos := List.length_pos_iff.mpr fun heq : taken = [] => hL (heq ▸ htaken)
      have hlength : s.rest.length = taken.length + rest.length := by
        rw [hrest, List.length_append]
      have hne : (s.past taken rest).rest.length ≠ s.rest.length := by
        rw [Scan.past_rest]
        omega
      simp only [again, if_neg hne]
      rw [ih (by rw [Scan.past_rest]; omega)]
      simp only [Scan.past_rest, Scan.past_past]
    rw [hstep, Option.isSome_or, Bool.or_eq_true, hagain]
    constructor
    · -- One more text is taken, or the repetition ends here.
      rintro (⟨taken, rest, hrest, htaken, h⟩ | h)
      · refine ⟨taken, rest, hrest, ?_, h⟩
        rw [← Language.one_add_self_mul_kstar_eq_kstar]
        exact .inr htaken
      · exact ⟨[], s.rest, rfl, Language.nil_mem_kstar L, h⟩
    · rintro ⟨taken, rest, hrest, htaken, h⟩
      rw [← Language.one_add_self_mul_kstar_eq_kstar] at htaken
      rcases htaken with rfl | htaken
      · obtain rfl : s.rest = rest := hrest
        exact .inr h
      · exact .inl ⟨taken, rest, hrest, htaken, h⟩

/-- Repetitions of two expressions that together take at least one character. -/
theorem Takes.repeated (h : (both a b).Takes L) (hL : [] ∉ L) :
    (repeated (both a b) 0 none .greedy).Takes L∗ := by
  intro s onward
  exact isSome_repeatFirst_iff h hL (by simp only [repetitions]; omega)

/-! ### Expressions in a row -/

theorem takes_sequence_nil : (sequence []).Takes 1 := takes_nothing

theorem Takes.sequence_cons (he : e.Takes L) (hes : (sequence es).Takes M) :
    (sequence (e :: es)).Takes (L * M) := he.append hes

theorem first_sequence_append (es fs : List Expression) (s : Scan) (onward : Onward) :
    (sequence (es ++ fs)).first s onward =
      (sequence es).first s fun t => (sequence fs).first t onward := by
  induction es generalizing s with
  | nil => rw [List.nil_append, sequence, first]
  | cons e es ih => simp only [List.cons_append, sequence, first_both, ih]

theorem Takes.sequence_append (hes : (sequence es).Takes L) (hfs : (sequence fs).Takes M) :
    (sequence (es ++ fs)).Takes (L * M) := by
  intro s onward
  rw [first_sequence_append]
  refine hes.isSome_first_iff fun taken rest _ _ => ?_
  simp only [hfs _ _, Scan.past_rest, Scan.past_past]

/-! ### What patterns write -/

theorem takes_inComponent : inComponent.Takes Glob.unseparated := by
  refine (takes_run .inComponent 0).congr fun cs => ?_
  simp only [Single.mem_runs, Glob.mem_unseparated, Nat.zero_le, true_and, Single.admits,
    bne_iff_ne]
  exact ⟨fun h hmem => h _ hmem rfl, fun h c hc heq => h (heq ▸ hc)⟩

theorem takes_anything : anything.Takes ⊤ := by
  refine (takes_run .any 0).congr fun cs => ?_
  simp only [Single.mem_runs, Nat.zero_le, true_and, Single.admits, implies_true]
  exact Iff.rfl

theorem takes_directories : directories.Takes Glob.directory∗ := by
  have hnames : (repeated (one .inComponent) 1 none .greedy).Takes Glob.names := by
    refine (takes_run .inComponent 1).congr fun cs => ?_
    simp only [Single.mem_runs, Glob.mem_names, Single.admits, bne_iff_ne, Nat.one_le_iff_ne_zero,
      ne_eq, List.length_eq_zero_iff]
    exact and_congr_right fun _ => ⟨fun h hmem => h _ hmem rfl, fun h c hc heq => h (heq ▸ hc)⟩
  refine (hnames.append (takes_char separator)).repeated ?_
  rintro ⟨name, _, _, ⟨c, rfl, -⟩, h⟩
  simp at h

/-- The texts that an expression describes from end to end are those that it takes. -/
theorem Takes.describes_iff (h : e.Takes L) : e.describes cs ↔ cs ∈ L := by
  have hlast : ∀ s : Scan, (atLast s).isSome ↔ s.rest = [] := by
    intro s
    cases hrest : s.rest <;> simp [atLast, hrest]
  rw [describes, h]
  simp only [hlast, Scan.past_rest]
  constructor
  · rintro ⟨taken, rest, hrest, htaken, rfl⟩
    obtain rfl : cs = taken := by simpa [Scan.start] using hrest
    exact htaken
  · intro hcs
    exact ⟨cs, [], by simp [Scan.start], hcs, rfl⟩

end Expression

end LinterSuite
