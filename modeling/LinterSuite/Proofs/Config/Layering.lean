import LinterSuite.Proofs.Config.Merging

/-!
# Merging as an ordered monoid

A table is known by two things: the keys that it has under each path, in their order, and the values
under the paths that lead to no table. When one table is laid over another, the keys of the later
one follow those of the earlier one that it shares none with, and of two values the later one
counts. Both ways of putting things together are associative, so that it does not matter which of
three neighbouring tables are merged first, neither for what comes out nor for whether anything
does: a merge fails exactly if two of the three clash.

## Main definitions

* `orderedUnion`: the members of two lists in the order of their first appearance
* `Value.keysAt`, `Value.leafAt`: the keys, and the value that is no table, under a path

## Main results

* `Value.ext_at`: keys and leaves under all paths determine a value
* `Value.keysAt_of_mergeOver`, `Value.leafAt_of_over`: keys and leaves of a merged value
* `Table.exists_merge_iff`: two tables can be merged exactly if they do not clash
* `Table.merge_ordered_monoid`: merging is associative, with the empty table as its unit
-/

namespace LinterSuite

/-! ### Unions in order -/

/-- The members of one list, and behind them those of another that it lacks. -/
def orderedUnion (xs ys : List String) : List String := xs ++ ys.filter (· ∉ xs)

section orderedUnion

variable {xs ys : List String} {x : String}

@[simp] theorem orderedUnion_nil (xs : List String) : orderedUnion xs [] = xs := by
  simp [orderedUnion]

@[simp] theorem nil_orderedUnion (ys : List String) : orderedUnion [] ys = ys := by
  simp [orderedUnion]

@[simp] theorem orderedUnion_self (xs : List String) : orderedUnion xs xs = xs := by
  simp [orderedUnion]

theorem orderedUnion_assoc (xs ys zs : List String) :
    orderedUnion (orderedUnion xs ys) zs = orderedUnion xs (orderedUnion ys zs) := by
  simp only [orderedUnion, List.append_assoc, List.filter_append, List.filter_filter]
  congr 2
  refine List.filter_congr fun z _ => ?_
  by_cases hx : z ∈ xs <;> simp [hx]

theorem nodup_orderedUnion (hx : xs.Nodup) (hy : ys.Nodup) : (orderedUnion xs ys).Nodup := by
  refine List.nodup_append.mpr ⟨hx, hy.filter _, ?_⟩
  rintro x hmem _ hother rfl
  simp [hmem] at hother

theorem orderedUnion_cons_of_mem (h : x ∈ xs) :
    orderedUnion xs (x :: ys) = orderedUnion xs ys := by
  simp [orderedUnion, h]

theorem orderedUnion_cons_of_not_mem (h : x ∉ xs) (hnew : x ∉ ys) :
    orderedUnion xs (x :: ys) = orderedUnion (xs ++ [x]) ys := by
  have hrest : ys.filter (· ∉ xs ++ [x]) = ys.filter (· ∉ xs) := by
    refine List.filter_congr fun y hy => ?_
    have hne : y ≠ x := fun heq => hnew (heq ▸ hy)
    simp [hne]
  rw [orderedUnion, orderedUnion, hrest, List.filter_cons_of_pos (by simpa using h)]
  simp

end orderedUnion

/-! ### Keys and leaves -/

/-- The keys of a table in order; any other value has none. -/
def Value.keys : Value → List String
  | .table t => Table.keys t
  | _ => []

/-- A value that is no table. -/
def Value.leaf? : Value → Option Value
  | .table _ => none
  | v => some v

/-- The keys under a path, in order. -/
def Value.keysAt (v : Value) (path : List String) : List String :=
  ((v.at? path).map keys).getD []

/-- The value under a path, if it is no table. -/
def Value.leafAt (v : Value) (path : List String) : Option Value := (v.at? path).bind leaf?

namespace Table

variable {source : String} {path : List String} {base merged t u : Table}
  {entries : List (String × Value)}

theorem mem_keys_iff {key : String} : key ∈ keys t ↔ ∃ v, t.get? key = some v := by
  simp only [← Option.isSome_iff_exists, get?, List.lookup_isSome_iff, beq_iff_eq, keys,
    List.mem_map]
  exact exists_congr fun e => and_congr_right fun _ => eq_comm

theorem keys_put (t : Table) (key : String) (v : Value) :
    keys (t.put key v) = if key ∈ keys t then keys t else keys t ++ [key] := by
  induction t with
  | nil => rfl
  | cons e rest ih =>
    obtain ⟨k, old⟩ := e
    by_cases hk : k = key
    · simp [put, Keyed.put, keys, hk]
    · have ih' : (Keyed.put rest key v).map Prod.fst =
          if key ∈ keys rest then keys rest else keys rest ++ [key] := ih
      have hne : key ≠ k := Ne.symm hk
      by_cases hmem : key ∈ keys rest <;>
        simp_all [put, Keyed.put, keys]

/-- The keys of the later table follow those of the earlier one. -/
theorem keys_of_mergeEntries (h : mergeEntries source path base entries = .ok merged)
    (hkeys : (keys entries).Nodup) :
    keys merged = orderedUnion (keys base) (keys entries) := by
  induction entries generalizing base with
  | nil =>
    obtain rfl := Except.ok.inj ((mergeEntries_nil ..).symm.trans h)
    exact (orderedUnion_nil _).symm
  | cons e rest ih =>
    obtain ⟨k, v⟩ := e
    obtain ⟨hk, hrest⟩ := List.nodup_cons.mp hkeys
    obtain ⟨w, -, h⟩ := exists_put_of_mergeEntries h
    have htail := ih h hrest
    rw [keys_put] at htail
    -- A key that is there keeps its place, and a new one is put last.
    by_cases hmem : k ∈ keys base
    · rw [if_pos hmem] at htail
      exact htail.trans (orderedUnion_cons_of_mem hmem).symm
    · rw [if_neg hmem] at htail
      exact htail.trans (orderedUnion_cons_of_not_mem hmem hk).symm

/-- Keys in order, and what each of them holds, make up a table. -/
theorem ext_get? (hkeys : keys t = keys u) (hdistinct : (keys t).Nodup)
    (h : ∀ key, t.get? key = u.get? key) : t = u := by
  induction t generalizing u with
  | nil => exact (List.map_eq_nil_iff.mp hkeys.symm).symm
  | cons e t ih =>
    obtain ⟨k, v⟩ := e
    obtain ⟨⟨k', w⟩, u, rfl, hk, hrest⟩ := List.map_eq_cons_iff.mp hkeys.symm
    obtain rfl : k' = k := hk
    obtain ⟨hnot, hdistinct'⟩ := List.nodup_cons.mp hdistinct
    obtain rfl : v = w := by simpa only [get?_cons_self, Option.some.injEq] using h k'
    rw [ih hrest.symm hdistinct' fun key => ?_]
    by_cases hkey : key = k'
    · -- The first key is not among the others, on either side.
      subst hkey
      have hnone : ∀ s : Table, key ∉ keys s → s.get? key = none := fun s hs => by
        rw [← Option.not_isSome_iff_eq_none, Option.isSome_iff_exists]
        exact mt mem_keys_iff.mpr hs
      rw [hnone t hnot, hnone u (by rw [keys, hrest]; exact hnot)]
    · simpa only [get?_cons_of_ne hkey] using h key

end Table

namespace Value

variable {source : String} {path : List String} {earlier later merged v w : Value} {t : Table}

theorem keys_of_kind (h : v.kind ≠ .table) : v.keys = [] := by
  cases v with
  | table => exact absurd rfl h
  | _ => rfl

theorem leaf?_of_kind (h : v.kind ≠ .table) : v.leaf? = some v := by
  cases v with
  | table => exact absurd rfl h
  | _ => rfl

theorem eq_of_leaf? (h : w.leaf? = some v) : w = v := by
  cases w with
  | table => exact nomatch h
  | _ => exact Option.some.inj h

theorem kind_of_leaf? (h : v.leaf? = none) : v.kind = .table := by
  cases v with
  | table => rfl
  | _ => exact nomatch h

@[simp] theorem keys_table (t : Table) : (table t).keys = Table.keys t := rfl

@[simp] theorem keysAt_nil (v : Value) : v.keysAt [] = v.keys := by
  simp [keysAt]

@[simp] theorem leafAt_nil (v : Value) : v.leafAt [] = v.leaf? := by
  simp [leafAt]

theorem keysAt_cons_of_get? {key : String} (h : t.get? key = some v) (path : List String) :
    (table t).keysAt (key :: path) = v.keysAt path := by
  simp [keysAt, h]

theorem leafAt_cons_of_get? {key : String} (h : t.get? key = some v) (path : List String) :
    (table t).leafAt (key :: path) = v.leafAt path := by
  simp [leafAt, h]

theorem tidy_iff_nodup_keysAt : v.Tidy ↔ ∀ path, (v.keysAt path).Nodup := by
  refine forall_congr' fun path => ⟨fun h => ?_, fun h entries hfound => ?_⟩
  · cases hfound : v.at? path with
    | none => simp [keysAt, hfound]
    | some w =>
      by_cases hkind : w.kind = .table
      · obtain ⟨entries, rfl⟩ := eq_table_of_kind hkind
        simpa [keysAt, hfound] using h entries hfound
      · simp [keysAt, hfound, keys_of_kind hkind]
  · simpa [keysAt, hfound] using h

/-- A value is known by the keys and the leaves under all paths. -/
theorem ext_at (hv : v.Tidy) (hw : w.Tidy) (hkeys : ∀ path, v.keysAt path = w.keysAt path)
    (hleaves : ∀ path, v.leafAt path = w.leafAt path) : v = w := by
  -- A table is known by its keys and by what they hold, which is smaller.
  induction hsize : sizeOf v using Nat.strongRecOn generalizing v w with | _ size ih
  subst hsize
  have hroot : v.leaf? = w.leaf? := by simpa using hleaves []
  by_cases hkind : v.kind = .table
  · obtain ⟨t, rfl⟩ := eq_table_of_kind hkind
    obtain ⟨u, rfl⟩ := eq_table_of_kind (kind_of_leaf? hroot.symm)
    obtain ⟨hdistinct, htidy⟩ := tidy_table_iff.mp hv
    obtain ⟨hdistinct', htidy'⟩ := tidy_table_iff.mp hw
    have hsame : Table.keys t = Table.keys u := by simpa using hkeys []
    congr 1
    refine Table.ext_get? hsame hdistinct fun key => ?_
    cases ht : Table.get? t key with
    | none =>
      have hnot : key ∉ Table.keys u := by
        rw [← hsame, Table.mem_keys_iff, ht]
        exact nofun
      rw [Table.mem_keys_iff, ← Option.isSome_iff_exists, Option.not_isSome_iff_eq_none] at hnot
      exact hnot.symm
    | some a =>
      obtain ⟨b, hu⟩ := Table.mem_keys_iff.mp (hsame ▸ Table.mem_keys_iff.mpr ⟨a, ht⟩)
      have hmem := (Keyed.lookup_eq_some_iff hdistinct).mp ht
      have hmem' := (Keyed.lookup_eq_some_iff hdistinct').mp hu
      rw [hu]
      refine congrArg some (ih _ (sizeOf_lt_of_mem hmem) (htidy _ hmem) (htidy' _ hmem')
        (fun path => ?_) (fun path => ?_) rfl)
      · simpa only [keysAt_cons_of_get? ht, keysAt_cons_of_get? hu] using hkeys (key :: path)
      · simpa only [leafAt_cons_of_get? ht, leafAt_cons_of_get? hu] using hleaves (key :: path)
  · exact (eq_of_leaf? (hroot ▸ leaf?_of_kind hkind)).symm

/-! ### One value laid over another -/

/-- Under every path the keys of the later value follow those of the earlier one. -/
theorem keysAt_of_mergeOver (h : mergeOver source path earlier later = .ok merged)
    (htidy : later.Tidy) (below : List String) :
    merged.keysAt below = orderedUnion (earlier.keysAt below) (later.keysAt below) := by
  induction below generalizing earlier later merged path with
  | nil =>
    simp only [keysAt_nil]
    rcases cases_of_mergeOver h with ⟨base, entries, t, rfl, rfl, rfl, ht⟩ | ⟨hkind, hleaf, rfl⟩
    · exact Table.keys_of_mergeEntries ht (tidy_table_iff.mp htidy).1
    · rw [keys_of_kind hleaf, keys_of_kind (hkind ▸ hleaf), orderedUnion_nil]
  | cons key below ih =>
    rcases cases_of_mergeOver h with ⟨base, entries, t, rfl, rfl, rfl, ht⟩ | ⟨hkind, hleaf, rfl⟩
    · obtain ⟨hkeys, hvalues⟩ := tidy_table_iff.mp htidy
      have hlaid := Table.laid_of_mergeEntries ht hkeys key
      have hvalue : ∀ v, Table.get? entries key = some v → v.Tidy := fun v hv =>
        hvalues _ ((Keyed.lookup_eq_some_iff hkeys).mp hv)
      simp only [keysAt, at?_table_cons]
      generalize Table.get? base key = before, Table.get? entries key = now,
        Table.get? t key = after at hlaid hvalue
      cases hlaid with
      | kept => exact (orderedUnion_nil _).symm
      | added v => exact (nil_orderedUnion _).symm
      | merged step => exact ih step (hvalue _ rfl)
    · simp [keysAt, at?_cons_of_kind hleaf, at?_cons_of_kind (hkind ▸ hleaf)]

/-- Of two leaves under one path the later one counts. -/
theorem Over.leaf {before now after : Option Value} (h : Over before now after) :
    after.bind leaf? = (now.bind leaf?).or (before.bind leaf?) := by
  cases h with
  | kept => simp
  | replaced leaf => simp [leaf?_of_kind leaf]
  | merged entries entries' sameKind =>
    -- Where a table was laid over something, there was a table or nothing.
    have hbefore : before.bind leaf? = none := by
      cases before with
      | none => rfl
      | some w =>
        obtain ⟨t, rfl⟩ := eq_table_of_kind (sameKind w rfl)
        rfl
    simp [leaf?, hbefore]

/-- After a merge there is a value of a kind under a path exactly if one side had one there. -/
theorem Over.exists_kind_iff {before now after : Option Value} (h : Over before now after)
    (kind : Kind) :
    (∃ v ∈ after, v.kind = kind) ↔ (∃ v ∈ before, v.kind = kind) ∨ ∃ v ∈ now, v.kind = kind := by
  cases h with
  | kept => simp
  | replaced leaf sameKind =>
    simp only [Option.mem_def, Option.some.injEq, exists_eq_left']
    refine ⟨.inr, fun hkind => hkind.elim (fun ⟨w, hw, hkind⟩ => ?_) id⟩
    exact (sameKind w hw).symm.trans hkind
  | merged entries entries' sameKind =>
    simp only [Option.mem_def, Option.some.injEq, exists_eq_left']
    refine ⟨.inr, fun hkind => hkind.elim (fun ⟨w, hw, hkind⟩ => ?_) id⟩
    exact (sameKind w hw).symm.trans hkind

/-- What is under one path on both sides is of one kind. -/
theorem Over.kind_eq {after : Option Value} (h : Over (some v) (some w) after) :
    v.kind = w.kind := by
  cases h with
  | replaced leaf sameKind => exact sameKind v rfl
  | merged entries entries' sameKind => exact sameKind v rfl

end Value

/-! ### Tables -/

namespace Table

variable {s s₁ s₂ s₃ s₄ : String} {a b c t u : Table}

theorem clashes_iff :
    a.Clashes b ↔ ∃ path k l, (∃ v ∈ a.at? path, v.kind = k) ∧ (∃ w ∈ b.at? path, w.kind = l) ∧
      k ≠ l := by
  constructor
  · rintro ⟨path, v, w, hv, hw, hne⟩
    exact ⟨path, _, _, ⟨v, hv, rfl⟩, ⟨w, hw, rfl⟩, hne⟩
  · rintro ⟨path, _, _, ⟨v, hv, rfl⟩, ⟨w, hw, rfl⟩, hne⟩
    exact ⟨path, v, w, hv, hw, hne⟩

theorem not_clashes_self (a : Table) : ¬ a.Clashes a := by
  rintro ⟨path, v, w, hv, hw, hne⟩
  obtain rfl := Option.some.inj (hv.symm.trans hw)
  exact hne rfl

theorem nil_not_clashes (a : Table) : ¬ Clashes [] a := by
  rintro ⟨path, v, w, hv, hw, hne⟩
  cases path with
  | nil =>
    obtain rfl := Option.some.inj ((Value.at?_nil _).symm.trans hv)
    obtain rfl := Option.some.inj ((Value.at?_nil _).symm.trans hw)
    exact hne rfl
  | cons key path => exact nomatch (Value.at?_table_cons [] key path).symm.trans hv

theorem mergeOver_of_merge (h : merge s a b = .ok t) :
    Value.mergeOver s [] (.table a) (.table b) = .ok (.table t) := by
  rw [mergeOver_eq_merge, h]
  rfl

/-- Two tables can be merged exactly if they do not clash. -/
theorem exists_merge_iff (hb : b.Tidy) : (∃ t, merge s a b = .ok t) ↔ ¬ a.Clashes b := by
  constructor
  · rintro ⟨t, h⟩ ⟨path, v, w, hv, hw, hne⟩
    have hover := over_of_merge h hb path
    rw [hv, hw] at hover
    exact hne hover.kind_eq
  · intro hclash
    cases h : merge s a b with
    | ok t => exact ⟨t, rfl⟩
    | error e =>
      have hover : Value.mergeOver s [] (.table a) (.table b) = .error e := by
        rw [mergeOver_eq_merge, h]
        rfl
      obtain ⟨path, v, w, hv, hw, hne, -⟩ := Value.exists_of_mergeOver_error hover hb
      exact absurd ⟨path, v, w, hv, hw, hne⟩ hclash

/-- What clashes with a merged table clashes with one of its parts, on the left of it. -/
theorem clashes_of_merge_left (h : merge s a b = .ok t) (hb : b.Tidy) :
    t.Clashes c ↔ a.Clashes c ∨ b.Clashes c := by
  simp only [clashes_iff, (over_of_merge h hb _).exists_kind_iff, or_and_right, exists_or]

/-- What clashes with a merged table clashes with one of its parts, on the right of it. -/
theorem clashes_of_merge_right (h : merge s b c = .ok t) (hc : c.Tidy) :
    a.Clashes t ↔ a.Clashes b ∨ a.Clashes c := by
  simp only [clashes_iff, (over_of_merge h hc _).exists_kind_iff, or_and_right, and_or_left,
    exists_or]

theorem keysAt_of_merge (h : merge s a b = .ok t) (hb : b.Tidy) (path : List String) :
    (Value.table t).keysAt path =
      orderedUnion ((Value.table a).keysAt path) ((Value.table b).keysAt path) :=
  Value.keysAt_of_mergeOver (mergeOver_of_merge h) hb path

theorem leafAt_of_merge (h : merge s a b = .ok t) (hb : b.Tidy) (path : List String) :
    (Value.table t).leafAt path =
      ((Value.table b).leafAt path).or ((Value.table a).leafAt path) :=
  (over_of_merge h hb path).leaf

theorem tidy_of_merge (h : merge s a b = .ok t) (ha : a.Tidy) (hb : b.Tidy) : t.Tidy := by
  refine Value.tidy_iff_nodup_keysAt.mpr fun path => ?_
  rw [keysAt_of_merge h hb]
  exact nodup_orderedUnion (Value.tidy_iff_nodup_keysAt.mp ha path)
    (Value.tidy_iff_nodup_keysAt.mp hb path)

/-- Two tables with the same keys and leaves under all paths are one. -/
theorem ext_at (ht : t.Tidy) (hu : u.Tidy)
    (hkeys : ∀ path, (Value.table t).keysAt path = (Value.table u).keysAt path)
    (hleaves : ∀ path, (Value.table t).leafAt path = (Value.table u).leafAt path) : t = u :=
  Value.table.inj (Value.ext_at ht hu hkeys hleaves)

/-- Merging three tables from the left fails exactly if two of them clash. -/
theorem exists_merge_merge_iff_left (hb : b.Tidy) (hc : c.Tidy) :
    (∃ t, (merge s₁ a b >>= fun ab => merge s₂ ab c) = .ok t) ↔
      ¬ (a.Clashes b ∨ a.Clashes c ∨ b.Clashes c) := by
  simp only [Except.bind_eq_ok_iff]
  constructor
  · rintro ⟨t, ab, hab, ht⟩
    have hclash := (exists_merge_iff hc).mp ⟨t, ht⟩
    -- The third table clashes with the merged one if it clashes with a part of it.
    rw [clashes_of_merge_left hab hb] at hclash
    exact not_or.mpr ⟨(exists_merge_iff hb).mp ⟨ab, hab⟩, hclash⟩
  · intro hclash
    obtain ⟨hab, hrest⟩ := not_or.mp hclash
    obtain ⟨ab, hab⟩ := (exists_merge_iff hb).mpr hab
    rw [← clashes_of_merge_left hab hb] at hrest
    obtain ⟨t, ht⟩ := (exists_merge_iff hc).mpr hrest
    exact ⟨t, ab, hab, ht⟩

/-- Merging three tables from the right fails exactly if two of them clash. -/
theorem exists_merge_merge_iff_right (hb : b.Tidy) (hc : c.Tidy) :
    (∃ t, (merge s₁ b c >>= fun bc => merge s₂ a bc) = .ok t) ↔
      ¬ (a.Clashes b ∨ a.Clashes c ∨ b.Clashes c) := by
  simp only [Except.bind_eq_ok_iff]
  rw [← or_assoc]
  constructor
  · rintro ⟨t, bc, hbc, ht⟩
    have hclash := (exists_merge_iff (tidy_of_merge hbc hb hc)).mp ⟨t, ht⟩
    rw [clashes_of_merge_right hbc hc] at hclash
    exact not_or.mpr ⟨hclash, (exists_merge_iff hc).mp ⟨bc, hbc⟩⟩
  · intro hclash
    obtain ⟨hrest, hbc⟩ := not_or.mp hclash
    obtain ⟨bc, hbc⟩ := (exists_merge_iff hc).mpr hbc
    rw [← clashes_of_merge_right hbc hc] at hrest
    obtain ⟨t, ht⟩ := (exists_merge_iff (tidy_of_merge hbc hb hc)).mpr hrest
    exact ⟨t, bc, hbc, ht⟩

/-- Three tables merged in two ways come to the same. -/
theorem merge_merge_eq (ha : a.Tidy) (hb : b.Tidy) (hc : c.Tidy)
    (ht : (merge s₁ a b >>= fun ab => merge s₂ ab c) = .ok t)
    (hu : (merge s₃ b c >>= fun bc => merge s₄ a bc) = .ok u) : t = u := by
  obtain ⟨ab, hab, ht⟩ := Except.bind_eq_ok_iff.mp ht
  obtain ⟨bc, hbc, hu⟩ := Except.bind_eq_ok_iff.mp hu
  have hbcTidy := tidy_of_merge hbc hb hc
  -- Under every path, ordered union of keys and choice of the later leaf are both associative.
  refine ext_at (tidy_of_merge ht (tidy_of_merge hab ha hb) hc) (tidy_of_merge hu ha hbcTidy)
    (fun path => ?_) fun path => ?_
  · rw [keysAt_of_merge ht hc, keysAt_of_merge hab hb, keysAt_of_merge hu hbcTidy,
      keysAt_of_merge hbc hc, orderedUnion_assoc]
  · rw [leafAt_of_merge ht hc, leafAt_of_merge hab hb, leafAt_of_merge hu hbcTidy,
      leafAt_of_merge hbc hc, Option.or_assoc]

theorem nil_merge (s : String) (ha : a.Tidy) : merge s [] a = .ok a := by
  obtain ⟨t, ht⟩ := (exists_merge_iff (s := s) ha).mpr (nil_not_clashes a)
  have hnil : Tidy [] := Value.tidy_table_iff.mpr ⟨List.nodup_nil, nofun⟩
  rw [ht, ext_at (tidy_of_merge ht hnil ha) ha (fun path => ?_) fun path => ?_]
  · rw [keysAt_of_merge ht ha]
    cases path <;> simp [Value.keysAt, Value.keys, keys, get?]
  · rw [leafAt_of_merge ht ha]
    cases path <;> simp [Value.leafAt, Value.leaf?, get?]

theorem merge_self (s : String) (ha : a.Tidy) : merge s a a = .ok a := by
  obtain ⟨t, ht⟩ := (exists_merge_iff (s := s) ha).mpr (not_clashes_self a)
  rw [ht, ext_at (tidy_of_merge ht ha ha) ha (fun path => ?_) fun path => ?_]
  · rw [keysAt_of_merge ht ha, orderedUnion_self]
  · rw [leafAt_of_merge ht ha, Option.or_self]

/-- Merging is an ordered monoid with failure. Of three tables it does not matter which two
neighbours are merged first: both ways succeed or neither does, and they come to the same table,
with the same order of keys in it and in all tables inside. The empty table changes nothing on
either side, and neither does a table that is laid over itself. The names of the sources, which
only reports of failures mention, have no part in it. -/
theorem merge_ordered_monoid (ha : a.Tidy) (hb : b.Tidy) (hc : c.Tidy)
    (s₁ s₂ s₃ s₄ s : String) :
    ((∃ t, (merge s₁ a b >>= fun ab => merge s₂ ab c) = .ok t) ↔
      ∃ t, (merge s₃ b c >>= fun bc => merge s₄ a bc) = .ok t) ∧
    (∀ t u, (merge s₁ a b >>= fun ab => merge s₂ ab c) = .ok t →
      (merge s₃ b c >>= fun bc => merge s₄ a bc) = .ok u → t = u) ∧
    merge s [] a = .ok a ∧ merge s a [] = .ok a ∧ merge s a a = .ok a := by
  refine ⟨?_, fun t u => merge_merge_eq ha hb hc, nil_merge s ha, merge_nil s a, merge_self s ha⟩
  rw [exists_merge_merge_iff_left hb hc, exists_merge_merge_iff_right hb hc]

/-- A configuration of a whole system. -/
def outerLayer : Table :=
  [("global", .table [("jobs", .integer 2)]),
    ("linter", .table [("a", .table [("command", .string "x"), ("options", .array [])])])]

/-- One below it, with another linter in front. -/
def middleLayer : Table :=
  [("linter", .table [("b", .table [("command", .string "y")]),
    ("a", .table [("timeout", .integer 3), ("options", .array [.string "-v"])])])]

/-- One at the bottom, with a key of its own in front. -/
def innerLayer : Table :=
  [("local", .boolean true),
    ("linter", .table [("a", .table [("command", .string "z")])]),
    ("global", .table [("jobs", .float (.ofInt 4))])]

theorem tidy_layers : Tidy outerLayer ∧ Tidy middleLayer ∧ Tidy innerLayer := by
  simp only [outerLayer, middleLayer, innerLayer, Tidy, Value.tidy_table_iff, keys, List.map_cons,
    List.map_nil, List.forall_mem_cons, List.not_mem_nil, false_implies, implies_true, and_true]
  simp (disch := decide) [Value.tidy_of_kind]

/-- The keys stand in the order of their first appearance, whichever two are merged first. -/
theorem merge_ordered_monoid_three_layers :
    (Tidy outerLayer ∧ Tidy middleLayer ∧ Tidy innerLayer) ∧
    ∃ t, (merge "m" outerLayer middleLayer >>= fun t => merge "i" t innerLayer) = .ok t ∧
      (merge "i" middleLayer innerLayer >>= fun t => merge "m" outerLayer t) = .ok t ∧
      (Value.table t).keysAt ["linter", "a"] = ["command", "options", "timeout"] := by
  obtain ⟨ho, hm, hi⟩ := tidy_layers
  obtain ⟨hsucceed, hsame, -⟩ := merge_ordered_monoid ho hm hi "m" "i" "i" "m" ""
  obtain ⟨t, ht, hkeys⟩ : ∃ t, (merge "m" outerLayer middleLayer >>= fun t =>
      merge "i" t innerLayer) = .ok t ∧
      (Value.table t).keysAt ["linter", "a"] = ["command", "options", "timeout"] := ⟨_, rfl, rfl⟩
  obtain ⟨u, hu⟩ := hsucceed.mp ⟨t, ht⟩
  obtain rfl := hsame t u ht hu
  exact ⟨tidy_layers, t, ht, hu, hkeys⟩

end Table

end LinterSuite
