/-!
# Lists of keys with values

A small table is a list of keys with their values in order of first insertion.

## Main definitions

* `Keyed.put`: a list with the value of a key set
* `Keyed.erase`: a list without a key

## Main results

* `Keyed.lookup_put_self`, `Keyed.lookup_put_of_ne`: what a key holds after another was set
* `Keyed.lookup_erase_of_ne`: erasing a key keeps the others
* `Keyed.lookup_eq_some_iff`: where keys are distinct, looking up is membership
-/

namespace LinterSuite.Keyed

variable {β : Type}

/-- The list with the value of a key set, in its old place or else at the end. -/
def put : List (String × β) → String → β → List (String × β)
  | [], key, v => [(key, v)]
  | (k, old) :: rest, key, v => if k = key then (k, v) :: rest else (k, old) :: put rest key v

/-- The list without the entries of a key. -/
def erase (entries : List (String × β)) (key : String) : List (String × β) :=
  entries.filter fun e => e.1 != key

@[simp] theorem lookup_put_self (entries : List (String × β)) (key : String) (v : β) :
    (put entries key v).lookup key = some v := by
  induction entries with
  | nil => simp [put]
  | cons e rest ih =>
    obtain ⟨k, old⟩ := e
    by_cases h : k = key
    · simp [put, h]
    · have h' : (key == k) = false := by simpa using Ne.symm h
      simpa [put, h, List.lookup_cons, h'] using ih

theorem lookup_put_of_ne {entries : List (String × β)} {key other : String} (v : β)
    (h : other ≠ key) : (put entries key v).lookup other = entries.lookup other := by
  have ho : (other == key) = false := by simpa using h
  induction entries with
  | nil => simp [put, List.lookup_cons, ho]
  | cons e rest ih =>
    obtain ⟨k, old⟩ := e
    by_cases hk : k = key
    · subst hk; simp [put, List.lookup_cons, ho]
    · simp [put, hk, List.lookup_cons, ih]

theorem lookup_erase_of_ne {entries : List (String × β)} {key other : String} (h : other ≠ key) :
    (erase entries key).lookup other = entries.lookup other := by
  induction entries with
  | nil => rfl
  | cons e rest ih =>
    obtain ⟨k, v⟩ := e
    have ih' : (rest.filter fun e => e.1 != key).lookup other = rest.lookup other := ih
    by_cases hk : k = key
    · subst hk
      have ho : (other == k) = false := by simpa using h
      simp [erase, List.lookup_cons, ho, ih']
    · simp [erase, hk, List.lookup_cons, ih']

theorem lookup_eq_some_iff {α : Type} [BEq α] [LawfulBEq α] {entries : List (α × β)} {key : α}
    {v : β} (hdistinct : (entries.map (·.1)).Nodup) :
    entries.lookup key = some v ↔ (key, v) ∈ entries := by
  induction entries with
  | nil => simp
  | cons e rest ih =>
    obtain ⟨k, old⟩ := e
    obtain ⟨hk, hrest⟩ := List.nodup_cons.1 hdistinct
    by_cases heq : key = k
    · subst heq
      have hnot : (key, v) ∉ rest := fun hmem => hk (List.mem_map.2 ⟨_, hmem, rfl⟩)
      simp [hnot, eq_comm]
    · have hbeq : (key == k) = false := by simpa using heq
      simp [List.lookup_cons, hbeq, ih hrest, heq]

end LinterSuite.Keyed
