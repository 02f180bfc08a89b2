import LinterSuite.Config.Source
import LinterSuite.Proofs.Fallible
import Mathlib.Data.List.Induction

/-!
# Merged configurations, path by path

A configuration is known by what is found under each path of keys. When one is laid over another,
what is found under a path is what the later one has there, and otherwise what the earlier one has;
tables are merged instead. This goes wrong exactly if there is a path under which the two have
values of different kinds. From this it follows what a whole list of configurations comes to, the
first at the bottom: conflicts are those between any two of them, however far apart, and under a
path that leads to no table the last one that has the path counts.

## Main definitions

* `Value.at?`, `Table.at?`: what is found under a path of keys
* `Value.Tidy`, `Table.Tidy`: no table in it has a key twice
* `Value.Over`: what is found under a path after one value was laid over another
* `Table.Clashes`: two tables with values of different kinds under one path
* `Table.lastAt`: what the last of some tables that has a path has there

## Main results

* `Value.over_of_mergeOver`: one value laid over another, path by path
* `Value.exists_of_mergeOver_error`: what keeps it from being laid over
* `Table.mergeAll_exact`: when some tables can be merged, and what they come to
* `FileTree.mergeConfigs_of_readConfig`: configuration files are merged in their order
-/

namespace LinterSuite

/-! ### Paths of keys -/

/-- The value under a path of keys. -/
def Value.at? : Value → List String → Option Value
  | v, [] => some v
  | .table t, key :: path =>
    match Table.get? t key with
    | some v => v.at? path
    | none => none
  | _, _ :: _ => none

/-- The value under a path of keys in a table. -/
def Table.at? (t : Table) (path : List String) : Option Value := (Value.table t).at? path

/-- A value in which no table has a key twice. -/
def Value.Tidy (v : Value) : Prop :=
  ∀ path entries, v.at? path = some (.table entries) → (Table.keys entries).Nodup

/-- A table that has no key twice, and so with all tables in it. -/
def Table.Tidy (t : Table) : Prop := (Value.table t).Tidy

namespace Value

variable {v w : Value} {t : Table} {key : String} {path : List String}

@[simp] theorem at?_nil (v : Value) : v.at? [] = some v := by
  rw [at?]

@[simp] theorem at?_table_cons (t : Table) (key : String) (path : List String) :
    (table t).at? (key :: path) = (t.get? key).bind (·.at? path) := by
  rw [at?]
  cases t.get? key <;> rfl

/-- Nothing is found below a value that is no table. -/
theorem at?_cons_of_kind (h : v.kind ≠ .table) (key : String) (path : List String) :
    v.at? (key :: path) = none := by
  cases v with
  | table => exact absurd rfl h
  | _ => rw [at?]; exact nofun

theorem eq_table_of_kind (h : v.kind = .table) : ∃ entries, v = .table entries := by
  cases v with
  | table entries => exact ⟨entries, rfl⟩
  | _ => exact nomatch h

theorem tidy_of_kind (h : v.kind ≠ .table) : v.Tidy := by
  intro path entries hfound
  cases path with
  | nil =>
    obtain rfl := Option.some.inj (v.at?_nil.symm.trans hfound)
    exact absurd rfl h
  | cons key path =>
    rw [at?_cons_of_kind h] at hfound
    exact nomatch hfound

theorem tidy_table_iff :
    (table t).Tidy ↔ (Table.keys t).Nodup ∧ ∀ e ∈ t, e.2.Tidy := by
  constructor
  · intro h
    have hkeys := h [] t (at?_nil _)
    refine ⟨hkeys, fun e he path entries hfound => h (e.1 :: path) entries ?_⟩
    have hget : t.get? e.1 = some e.2 := (Keyed.lookup_eq_some_iff hkeys).mpr he
    rw [at?_table_cons, hget, Option.bind_some, hfound]
  · rintro ⟨hkeys, hvalues⟩ path entries hfound
    cases path with
    | nil =>
      obtain rfl : t = entries := by simpa using hfound
      exact hkeys
    | cons key path =>
      rw [at?_table_cons] at hfound
      obtain ⟨v, hv, hfound⟩ := Option.bind_eq_some_iff.mp hfound
      exact hvalues _ ((Keyed.lookup_eq_some_iff hkeys).mp hv) path entries hfound

end Value

/-! ### One value laid over another -/

/-- What a key holds after entries were laid over a table: what it held before, or the new value, or
the new value laid over the one before. -/
inductive Table.Laid (source : String) (path : List String) :
    Option Value → Option Value → Option Value → Prop
  | kept (earlier : Option Value) : Laid source path earlier none earlier
  | added (v : Value) : Laid source path none (some v) (some v)
  | merged {earlier v w : Value} (step : Value.mergeOver source path earlier v = .ok w) :
      Laid source path (some earlier) (some v) (some w)

namespace Table

variable {source : String} {path : List String} {base merged : Table}
  {entries : List (String × Value)} {key : String}

theorem get?_cons_self (key : String) (v : Value) (rest : List (String × Value)) :
    get? ((key, v) :: rest) key = some v := List.lookup_cons_self

theorem get?_cons_of_ne {other : String} (h : other ≠ key) (v : Value)
    (rest : List (String × Value)) : get? ((key, v) :: rest) other = get? rest other := by
  have hne : (other == key) = false := by simpa using h
  rw [get?, List.lookup_cons, hne]
  rfl

/-- An entry is laid over what its key holds, and then the others are laid over. -/
theorem exists_put_of_mergeEntries {v : Value}
    (h : mergeEntries source path base ((key, v) :: entries) = .ok merged) :
    ∃ w, Laid source (path ++ [key]) (base.get? key) (some v) (some w) ∧
      mergeEntries source path (base.put key w) entries = .ok merged := by
  rw [mergeEntries] at h
  cases hbase : base.get? key with
  | none =>
    rw [hbase] at h
    exact ⟨v, .added v, h⟩
  | some earlier =>
    simp only [hbase] at h
    cases hover : Value.mergeOver source (path ++ [key]) earlier v with
    | error e => simp [hover] at h
    | ok w =>
      simp only [hover] at h
      exact ⟨w, .merged hover, h⟩

theorem get?_mergeEntries_of_not_mem (h : mergeEntries source path base entries = .ok merged)
    (hkey : key ∉ keys entries) : merged.get? key = base.get? key := by
  induction entries generalizing base with
  | nil =>
    obtain rfl := Except.ok.inj ((mergeEntries_nil ..).symm.trans h)
    rfl
  | cons e rest ih =>
    obtain ⟨hne, hrest⟩ := not_or.mp (mt List.mem_cons.mpr hkey)
    obtain ⟨w, -, h⟩ := exists_put_of_mergeEntries h
    rw [ih h hrest, get?_put_of_ne w hne]

/-- Every key is laid over on its own. -/
theorem laid_of_mergeEntries (h : mergeEntries source path base entries = .ok merged)
    (hkeys : (keys entries).Nodup) (key : String) :
    Laid source (path ++ [key]) (base.get? key) (get? entries key) (merged.get? key) := by
  induction entries generalizing base with
  | nil =>
    obtain rfl := Except.ok.inj ((mergeEntries_nil ..).symm.trans h)
    exact .kept _
  | cons e rest ih =>
    obtain ⟨first, v⟩ := e
    obtain ⟨hfirst, hrest⟩ := List.nodup_cons.mp hkeys
    obtain ⟨w, hlaid, h⟩ := exists_put_of_mergeEntries h
    by_cases hkey : key = first
    · subst hkey
      rwa [get?_cons_self, get?_mergeEntries_of_not_mem h hfirst, get?_put_self]
    · have hother := ih h hrest
      rwa [get?_put_of_ne w hkey, ← get?_cons_of_ne hkey v rest] at hother

/-- Entries cannot be laid over a table because one of them cannot. -/
theorem exists_of_mergeEntries_error {e : KindChange}
    (h : mergeEntries source path base entries = .error e) (hkeys : (keys entries).Nodup) :
    ∃ key v earlier, (key, v) ∈ entries ∧ base.get? key = some earlier ∧
      Value.mergeOver source (path ++ [key]) earlier v = .error e := by
  induction entries generalizing base with
  | nil => exact nomatch (mergeEntries_nil ..).symm.trans h
  | cons first rest ih =>
    obtain ⟨k, v⟩ := first
    obtain ⟨hk, hrest⟩ := List.nodup_cons.mp hkeys
    -- What the key of a later entry holds was not touched by this one, since the keys are distinct.
    have hlater : ∀ w, mergeEntries source path (base.put k w) rest = .error e →
        ∃ key v' earlier, (key, v') ∈ (k, v) :: rest ∧ base.get? key = some earlier ∧
          Value.mergeOver source (path ++ [key]) earlier v' = .error e := by
      intro w hw
      obtain ⟨key, v', earlier, hmem, hearlier, hover⟩ := ih hw hrest
      have hne : key ≠ k := by
        rintro rfl
        exact hk (List.mem_map.mpr ⟨_, hmem, rfl⟩)
      rw [get?_put_of_ne w hne] at hearlier
      exact ⟨key, v', earlier, List.mem_cons_of_mem _ hmem, hearlier, hover⟩
    rw [mergeEntries] at h
    cases hbase : base.get? k with
    | none =>
      rw [hbase] at h
      exact hlater v h
    | some earlier =>
      simp only [hbase] at h
      cases hover : Value.mergeOver source (path ++ [k]) earlier v with
      | error e' =>
        simp only [hover] at h
        obtain rfl := Except.error.inj h
        exact ⟨k, v, earlier, List.mem_cons_self, hbase, hover⟩
      | ok w =>
        simp only [hover] at h
        exact hlater w h

end Table

namespace Value

variable {source : String} {path : List String} {earlier later merged : Value}

/-- What a table holds is smaller than the table. -/
theorem sizeOf_lt_of_mem {entries : Table} {key : String} {v : Value}
    (h : (key, v) ∈ entries) : sizeOf v < sizeOf (table entries) := by
  have hentry := List.sizeOf_lt_of_mem h
  rw [Prod.mk.sizeOf_spec] at hentry
  rw [table.sizeOf_spec]
  omega

theorem mergeOver_tables (source : String) (path : List String) (base entries : Table) :
    mergeOver source path (.table base) (.table entries) =
      (Table.mergeEntries source path base entries).map .table := by
  rw [mergeOver]

/-- Only values of the same kind are laid over each other. -/
theorem mergeOver_of_kind_ne (h : earlier.kind ≠ later.kind) :
    mergeOver source path earlier later = .error ⟨path, source, later.kind, earlier.kind⟩ := by
  cases later with
  | table entries =>
    cases earlier with
    | table base => exact absurd rfl h
    | _ => rw [mergeOver]; exacts [rfl, nofun]
  | _ => rw [mergeOver, if_neg h]; exact nofun

/-- A value that is no table replaces the earlier one. -/
theorem mergeOver_of_kind_eq (h : earlier.kind = later.kind) (hleaf : later.kind ≠ .table) :
    mergeOver source path earlier later = .ok later := by
  cases later with
  | table entries => exact absurd rfl hleaf
  | _ => rw [mergeOver, if_pos h]; exact nofun

/-- A value that was laid over another is of the same kind: two tables were merged, or a value that
is no table replaced the earlier one. -/
theorem cases_of_mergeOver (h : mergeOver source path earlier later = .ok merged) :
    (∃ base entries t, earlier = .table base ∧ later = .table entries ∧ merged = .table t ∧
      Table.mergeEntries source path base entries = .ok t) ∨
    (earlier.kind = later.kind ∧ later.kind ≠ .table ∧ merged = later) := by
  by_cases hkind : earlier.kind = later.kind
  · by_cases htable : later.kind = .table
    · obtain ⟨entries, rfl⟩ := eq_table_of_kind htable
      obtain ⟨base, rfl⟩ := eq_table_of_kind hkind
      rw [mergeOver_tables] at h
      obtain ⟨t, ht, rfl⟩ := Except.map_eq_ok_iff.mp h
      exact .inl ⟨base, entries, t, rfl, rfl, rfl, ht⟩
    · rw [mergeOver_of_kind_eq hkind htable] at h
      exact .inr ⟨hkind, htable, (Except.ok.inj h).symm⟩
  · rw [mergeOver_of_kind_ne hkind] at h
    exact nomatch h

/-- What is found under a path after one value was laid over another: what the earlier one has if
the later one has nothing, a table if it has a table, and otherwise what it has. Where both have
something it is of one kind. -/
inductive Over : Option Value → Option Value → Option Value → Prop
  | kept (earlier : Option Value) : Over earlier none earlier
  | replaced {earlier : Option Value} {v : Value} (leaf : v.kind ≠ .table)
      (sameKind : ∀ w ∈ earlier, w.kind = v.kind) : Over earlier (some v) (some v)
  | merged {earlier : Option Value} (entries entries' : Table)
      (sameKind : ∀ w ∈ earlier, w.kind = .table) :
      Over earlier (some (.table entries)) (some (.table entries'))

theorem Over.added (later : Option Value) : Over none later later := by
  cases later with
  | none => exact .kept none
  | some v =>
    by_cases htable : v.kind = .table
    · obtain ⟨entries, rfl⟩ := eq_table_of_kind htable
      exact .merged entries entries nofun
    · exact .replaced htable nofun

/-- One value laid over another, path by path. -/
theorem over_of_mergeOver (h : mergeOver source path earlier later = .ok merged)
    (htidy : later.Tidy) (below : List String) :
    Over (earlier.at? below) (later.at? below) (merged.at? below) := by
  induction below generalizing earlier later merged path with
  | nil =>
    simp only [at?_nil]
    rcases cases_of_mergeOver h with ⟨base, entries, t, rfl, rfl, rfl, -⟩ | ⟨hkind, hleaf, rfl⟩
    · exact .merged entries t fun _ hw => Option.mem_some.mp hw ▸ rfl
    · exact .replaced hleaf fun _ hw => Option.mem_some.mp hw ▸ hkind
  | cons key below ih =>
    rcases cases_of_mergeOver h with ⟨base, entries, t, rfl, rfl, rfl, ht⟩ | ⟨hkind, hleaf, rfl⟩
    · obtain ⟨hkeys, hvalues⟩ := tidy_table_iff.mp htidy
      -- What is found under the rest of the path depends on what the first key holds.
      have hlaid := Table.laid_of_mergeEntries ht hkeys key
      have hvalue : ∀ v, Table.get? entries key = some v → v.Tidy := fun v hv =>
        hvalues _ ((Keyed.lookup_eq_some_iff hkeys).mp hv)
      simp only [at?_table_cons]
      generalize Table.get? base key = before, Table.get? entries key = now,
        Table.get? t key = after at hlaid hvalue
      cases hlaid with
      | kept => exact .kept _
      | added v => exact .added _
      | merged step => exact ih step (hvalue _ rfl)
    · rw [at?_cons_of_kind hleaf, at?_cons_of_kind (hkind ▸ hleaf)]
      exact .kept none

/-- What keeps a value from being laid over another is a path under which the two have values of
different kinds. The report names the path and the kinds. -/
theorem exists_of_mergeOver_error {e : KindChange}
    (h : mergeOver source path earlier later = .error e) (htidy : later.Tidy) :
    ∃ below v w, earlier.at? below = some v ∧ later.at? below = some w ∧ v.kind ≠ w.kind ∧
      e = ⟨path ++ below, source, w.kind, v.kind⟩ := by
  -- The path may go down through any number of tables, so the induction is on the size.
  induction hsize : sizeOf later using Nat.strongRecOn
    generalizing path earlier later with | _ size ih
  subst hsize
  by_cases hkind : earlier.kind = later.kind
  · by_cases htable : later.kind = .table
    · obtain ⟨entries, rfl⟩ := eq_table_of_kind htable
      obtain ⟨base, rfl⟩ := eq_table_of_kind hkind
      obtain ⟨hkeys, hvalues⟩ := tidy_table_iff.mp htidy
      rw [mergeOver_tables, Except.map_eq_error_iff] at h
      obtain ⟨key, v, old, hmem, hold, hover⟩ :=
        Table.exists_of_mergeEntries_error h hkeys
      have hv : Table.get? entries key = some v := (Keyed.lookup_eq_some_iff hkeys).mpr hmem
      obtain ⟨below, v', w, hv', hw, hne, rfl⟩ :=
        ih _ (sizeOf_lt_of_mem hmem) hover (hvalues _ hmem) rfl
      refine ⟨key :: below, v', w, ?_, ?_, hne, by rw [List.append_assoc]; rfl⟩
      · rw [at?_table_cons, hold, Option.bind_some, hv']
      · rw [at?_table_cons, hv, Option.bind_some, hw]
    · rw [mergeOver_of_kind_eq hkind htable] at h
      exact nomatch h
  · rw [mergeOver_of_kind_ne hkind] at h
    obtain rfl := Except.error.inj h
    exact ⟨[], earlier, later, at?_nil _, at?_nil _, hkind, by rw [List.append_nil]⟩

end Value

/-! ### Many tables -/

namespace Table

/-- Two tables that have values of different kinds under one path. -/
def Clashes (earlier later : Table) : Prop :=
  ∃ path v w, earlier.at? path = some v ∧ later.at? path = some w ∧ v.kind ≠ w.kind

/-- What the last of some tables that has a path has there. -/
def lastAt (fragments : List (String × Table)) (path : List String) : Option Value :=
  fragments.reverse.findSome? fun f => f.2.at? path

variable {fragments : List (String × Table)} {base merged : Table} {path : List String}

theorem lastAt_concat (fragments : List (String × Table)) (f : String × Table)
    (path : List String) :
    lastAt (fragments ++ [f]) path = (f.2.at? path).or (lastAt fragments path) := by
  rw [lastAt, List.reverse_append, List.reverse_singleton, List.singleton_append,
    List.findSome?_cons]
  cases f.2.at? path <;> rfl

theorem exists_of_lastAt {v : Value} (h : lastAt fragments path = some v) :
    ∃ f ∈ fragments, f.2.at? path = some v := by
  obtain ⟨f, hf, hv⟩ := List.exists_of_findSome?_eq_some h
  exact ⟨f, List.mem_reverse.mp hf, hv⟩

theorem mergeAll_concat (fragments : List (String × Table)) (f : String × Table) :
    mergeAll (fragments ++ [f]) = mergeAll fragments >>= fun base => merge f.1 base f.2 := by
  rw [mergeAll, mergeAll, List.foldlM_append]
  simp

theorem mergeOver_eq_merge (source : String) (base later : Table) :
    Value.mergeOver source [] (.table base) (.table later) =
      (merge source base later).map .table := Value.mergeOver_tables ..

/-- One table laid over another, path by path. -/
theorem over_of_merge {source : String} {later : Table} (h : merge source base later = .ok merged)
    (htidy : later.Tidy) (path : List String) :
    Value.Over (base.at? path) (later.at? path) (merged.at? path) := by
  have hover : Value.mergeOver source [] (.table base) (.table later) = .ok (.table merged) := by
    rw [mergeOver_eq_merge, h]
    rfl
  exact Value.over_of_mergeOver hover htidy path

/-- Wherever one of the tables has something, the merged one has something of the same kind. -/
theorem exists_of_mergeAll (htidy : ∀ f ∈ fragments, f.2.Tidy)
    (h : mergeAll fragments = .ok merged) {f : String × Table} (hf : f ∈ fragments) {v : Value}
    (hv : f.2.at? path = some v) : ∃ w, merged.at? path = some w ∧ w.kind = v.kind := by
  induction fragments using List.reverseRecOn generalizing merged with
  | nil => exact absurd hf List.not_mem_nil
  | append_singleton fragments last ih =>
    rw [mergeAll_concat] at h
    obtain ⟨base, hbase, h⟩ := Except.bind_eq_ok_iff.mp h
    have hover := over_of_merge h (htidy last (by simp)) path
    -- It is one of those that were merged before, or the last one.
    rcases List.mem_append.mp hf with hf | hf
    · obtain ⟨w, hw, hkind⟩ := ih (fun f hf => htidy f (List.mem_append_left _ hf)) hbase hf
      rw [hw] at hover
      generalize last.2.at? path = now, merged.at? path = after at hover
      cases hover with
      | kept => exact ⟨w, rfl, hkind⟩
      | replaced _ sameKind => exact ⟨_, rfl, (sameKind w rfl).symm.trans hkind⟩
      | merged _ _ sameKind => exact ⟨_, rfl, (sameKind w rfl).symm.trans hkind⟩
    · obtain rfl := List.mem_singleton.mp hf
      rw [hv] at hover
      generalize merged.at? path = after at hover
      cases hover with
      | replaced => exact ⟨v, rfl, rfl⟩
      | merged => exact ⟨_, rfl, rfl⟩

/-- Under a path the merged table has what the last of the tables that has it has there, unless that
is a table. -/
theorem lastAt_of_mergeAll (htidy : ∀ f ∈ fragments, f.2.Tidy)
    (h : mergeAll fragments = .ok merged) (hpath : path ≠ []) {v : Value}
    (hv : merged.at? path = some v) :
    ∃ w, lastAt fragments path = some w ∧ w.kind = v.kind ∧ (v.kind ≠ .table → w = v) := by
  induction fragments using List.reverseRecOn generalizing merged with
  | nil =>
    obtain rfl := Except.ok.inj h
    obtain ⟨key, path, rfl⟩ := List.exists_cons_of_ne_nil hpath
    exact nomatch (Value.at?_table_cons [] key path).symm.trans hv
  | append_singleton fragments last ih =>
    rw [mergeAll_concat] at h
    obtain ⟨base, hbase, h⟩ := Except.bind_eq_ok_iff.mp h
    have hover := over_of_merge h (htidy last (by simp)) path
    have hbefore := ih (fun f hf => htidy f (List.mem_append_left _ hf)) hbase
    rw [lastAt_concat]
    rw [hv] at hover
    generalize last.2.at? path = now, base.at? path = before at hover hbefore
    cases hover with
    | kept =>
      -- The last table has nothing there, so what counts is what counted before.
      rw [Option.none_or]
      exact hbefore rfl
    | replaced => exact ⟨v, rfl, rfl, fun _ => rfl⟩
    | merged entries entries' => exact ⟨_, rfl, rfl, fun hleaf => absurd rfl hleaf⟩

/-- What keeps some tables from being merged is a path under which one of them has a value of
another kind than the last one before it that has something there. The report names the path, the
kinds, and the later one. -/
theorem exists_of_mergeAll_error {e : KindChange} (htidy : ∀ f ∈ fragments, f.2.Tidy)
    (h : mergeAll fragments = .error e) :
    ∃ before f after v w, fragments = before ++ f :: after ∧ lastAt before e.path = some v ∧
      f.2.at? e.path = some w ∧ v.kind ≠ w.kind ∧ e = ⟨e.path, f.1, w.kind, v.kind⟩ := by
  induction fragments using List.reverseRecOn with
  | nil => exact nomatch h
  | append_singleton fragments last ih =>
    have htidy' : ∀ f ∈ fragments, f.2.Tidy := fun f hf => htidy f (List.mem_append_left _ hf)
    rw [mergeAll_concat] at h
    cases hbase : mergeAll fragments with
    | error e' =>
      rw [hbase] at h
      obtain rfl : e' = e := Except.error.inj h
      obtain ⟨before, f, after, v, w, rfl, hfound⟩ := ih htidy' hbase
      exact ⟨before, f, after ++ [last], v, w, by simp, hfound⟩
    | ok base =>
      rw [hbase] at h
      have hover : Value.mergeOver last.1 [] (.table base) (.table last.2) = .error e := by
        rw [mergeOver_eq_merge, Except.map_eq_error_iff]
        exact h
      obtain ⟨path, v, w, hv, hw, hne, rfl⟩ :=
        Value.exists_of_mergeOver_error hover (htidy last (by simp))
      -- At the root there are tables on both sides.
      have hpath : path ≠ [] := by
        rintro rfl
        obtain rfl := Option.some.inj ((Value.at?_nil _).symm.trans hv)
        obtain rfl := Option.some.inj ((Value.at?_nil _).symm.trans hw)
        exact hne rfl
      obtain ⟨v', hlast, hkind, -⟩ := lastAt_of_mergeAll htidy' hbase hpath hv
      exact ⟨fragments, last, [], v', w, rfl, hlast, hw, hkind ▸ hne, by rw [hkind]⟩

/-- Some tables cannot be merged exactly if two of them have values of different kinds under one
path. Otherwise the merged table has the paths that one of them has, and no others, and under a path
that leads to no table it has what the last of them that has the path has there. -/
theorem mergeAll_exact (fragments : List (String × Table)) (htidy : ∀ f ∈ fragments, f.2.Tidy) :
    ((∃ e, mergeAll fragments = .error e) ↔
      ∃ f ∈ fragments, ∃ g ∈ fragments, f.2.Clashes g.2) ∧
    ∀ merged, mergeAll fragments = .ok merged → ∀ path, path ≠ [] →
      ((∃ v, merged.at? path = some v) ↔ ∃ f ∈ fragments, ∃ v, f.2.at? path = some v) ∧
      ∀ v, merged.at? path = some v → v.kind ≠ .table → lastAt fragments path = some v := by
  refine ⟨⟨?_, ?_⟩, fun merged h path hpath => ⟨⟨?_, ?_⟩, ?_⟩⟩
  · rintro ⟨e, h⟩
    obtain ⟨before, g, after, v, w, rfl, hlast, hw, hne, -⟩ := exists_of_mergeAll_error htidy h
    obtain ⟨f, hf, hv⟩ := exists_of_lastAt hlast
    exact ⟨f, List.mem_append_left _ hf, g, by simp, _, v, w, hv, hw, hne⟩
  · rintro ⟨f, hf, g, hg, path, v, w, hv, hw, hne⟩
    cases h : mergeAll fragments with
    | error e => exact ⟨e, rfl⟩
    | ok merged =>
      -- The merged table would have values of both kinds there.
      obtain ⟨x, hx, hxv⟩ := exists_of_mergeAll htidy h hf hv
      obtain ⟨y, hy, hyw⟩ := exists_of_mergeAll htidy h hg hw
      obtain rfl := Option.some.inj (hx.symm.trans hy)
      exact absurd (hxv.symm.trans hyw) hne
  · rintro ⟨v, hv⟩
    obtain ⟨w, hlast, -⟩ := lastAt_of_mergeAll htidy h hpath hv
    obtain ⟨f, hf, hw⟩ := exists_of_lastAt hlast
    exact ⟨f, hf, w, hw⟩
  · rintro ⟨f, hf, v, hv⟩
    obtain ⟨w, hw, -⟩ := exists_of_mergeAll htidy h hf hv
    exact ⟨w, hw⟩
  · intro v hv hleaf
    obtain ⟨w, hlast, -, heq⟩ := lastAt_of_mergeAll htidy h hpath hv
    exact heq hleaf ▸ hlast

/-- Three configurations, of which the second and the third both set the options of a linter. -/
def threeLayers : List (String × Table) :=
  [("/multilint.toml", [("global", .table [("jobs", .integer 2)])]),
    ("/p/multilint.toml", [("linter", .table [("a", .table [("command", .string "x"),
      ("options", .array [.string "-v", .string "-q"])])])]),
    ("/p/q/multilint.toml", [("linter", .table [("a", .table [("options", .array []),
      ("timeout", .integer 3)])])])]

theorem tidy_threeLayers : ∀ f ∈ threeLayers, f.2.Tidy := by
  simp only [threeLayers, List.forall_mem_cons, List.not_mem_nil, false_implies, implies_true,
    and_true, Tidy, Value.tidy_table_iff, keys, List.map_cons, List.map_nil]
  simp (disch := decide) [Value.tidy_of_kind]

/-- The last of them counts, and the array is replaced as a whole. -/
theorem mergeAll_exact_three_layers :
    (∀ f ∈ threeLayers, f.2.Tidy) ∧ ∃ merged, mergeAll threeLayers = .ok merged ∧
      (∃ v, merged.at? ["linter", "a", "command"] = some v) ∧
      ∀ v, merged.at? ["linter", "a", "options"] = some v → v.kind ≠ .table →
        v = .array [] := by
  obtain ⟨-, hmerged⟩ := mergeAll_exact threeLayers tidy_threeLayers
  obtain ⟨merged, h⟩ : ∃ merged, mergeAll threeLayers = .ok merged := ⟨_, rfl⟩
  obtain ⟨hcommand, -⟩ := hmerged merged h ["linter", "a", "command"] (by decide)
  obtain ⟨-, hoptions⟩ := hmerged merged h ["linter", "a", "options"] (by decide)
  refine ⟨tidy_threeLayers, merged, h, hcommand.mpr ?_, fun v hv hleaf => ?_⟩
  · exact ⟨_, List.mem_cons_of_mem _ List.mem_cons_self, _, rfl⟩
  · exact Option.some.inj ((hoptions v hv hleaf).symm.trans rfl)

end Table

namespace FileTree

variable {t : FileTree} {paths : List Path} {documents : List Table}

/-- Configuration files whose documents can be read are merged in their order. -/
theorem mergeConfigs_of_readConfig (base : Table)
    (h : List.Forall₂ (fun p document => t.readConfig p = .ok document) paths documents) :
    (t.mergeConfigs base paths).2 =
      (((paths.map Path.toString).zip documents).foldlM
        (fun base f => Table.merge f.1 base f.2) base).mapError
          fun e => .config (.kindChange e) := by
  induction h generalizing base with
  | nil => rfl
  | @cons p document paths documents hread _ ih =>
    rw [mergeConfigs, hread]
    simp only [List.map_cons, List.zip_cons_cons, List.foldlM_cons]
    cases hmerge : Table.merge p.toString base document with
    | error e => rfl
    | ok merged => exact ih merged

end FileTree

end LinterSuite
