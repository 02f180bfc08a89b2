import LinterSuite.FileTree.Basic

/-!
# Well-named trees

The names that a directory gives to its places are distinct, and each of them can be a component of
a path: it is not empty, is neither of the dots, and holds no separator and no null character. In
such a tree, names that lead through directories only are an absolute path without links.

## Main definitions

* `Node.IsName`: a name that a place can have
* `Node.WellNamed`: a place in which, all the way down, names are as described

## Main results

* `Node.get?_dir_cons`: names lead through a directory by its first one
* `Node.get?_append`: names lead on from where others lead
* `FileTree.realPath_of_isDir`: a directory that names lead to is its own absolute path
-/

namespace LinterSuite

namespace Node

/-- A name that a place can have. -/
structure IsName (name : String) : Prop where
  ne_empty : name ≠ ""
  ne_dot : name ≠ "."
  ne_dots : name ≠ ".."
  no_separator : '/' ∉ name.toList
  no_null : '\x00' ∉ name.toList

/-- A place in which every directory gives distinct names that places can have. -/
inductive WellNamed : Node → Prop
  | file (data : FileData) : WellNamed (.file data)
  | link (target : String) : WellNamed (.link target)
  | dir {mtime : Int} {es : List (String × Node)} (distinct : (es.map (·.1)).Nodup)
      (names : ∀ e ∈ es, IsName e.1) (below : ∀ e ∈ es, WellNamed e.2) : WellNamed (.dir mtime es)

variable {n : Node} {es : List (String × Node)}

theorem get?_dir_cons (mtime : Int) (es : List (String × Node)) (name : String)
    (rest : List String) :
    (Node.dir mtime es).get? (name :: rest) = (es.lookup name).bind (·.get? rest) := by
  cases h : es.lookup name <;> simp [get?, h]

theorem get?_append (n : Node) (xs ys : List String) :
    n.get? (xs ++ ys) = (n.get? xs).bind (·.get? ys) := by
  induction xs generalizing n with
  | nil => simp
  | cons name xs ih =>
    cases n with
    | file data => simp [get?]
    | link target => simp [get?]
    | dir mtime es =>
      rw [List.cons_append, get?_dir_cons, get?_dir_cons]
      cases es.lookup name with
      | none => rfl
      | some below => exact ih below

/-- Names that lead somewhere lead through a directory before the last. -/
theorem exists_dir_of_get?_append {n m : Node} {xs : List String} {name : String}
    {ys : List String} (h : n.get? (xs ++ name :: ys) = some m) :
    ∃ mtime es, n.get? xs = some (.dir mtime es) := by
  rw [get?_append, Option.bind_eq_some_iff] at h
  obtain ⟨below, hbelow, hm⟩ := h
  cases below with
  | file data => simp [get?] at hm
  | link target => simp [get?] at hm
  | dir mtime es => exact ⟨mtime, es, hbelow⟩

namespace WellNamed

theorem get? {n m : Node} (h : n.WellNamed) {names : List String} (hm : n.get? names = some m) :
    m.WellNamed := by
  induction names generalizing n with
  | nil =>
    obtain rfl : n = m := by simpa using hm
    exact h
  | cons name rest ih =>
    cases h with
    | file data => simp [Node.get?] at hm
    | link target => simp [Node.get?] at hm
    | dir distinct _ below =>
      rw [get?_dir_cons, Option.bind_eq_some_iff] at hm
      obtain ⟨child, hchild, hm⟩ := hm
      exact ih (below _ ((Keyed.lookup_eq_some_iff distinct).mp hchild)) hm

/-- Names that lead somewhere are names that places can have. -/
theorem isName_of_mem {n m : Node} (h : n.WellNamed) {names : List String}
    (hm : n.get? names = some m) {name : String} (hname : name ∈ names) : IsName name := by
  induction names generalizing n with
  | nil => simp at hname
  | cons first rest ih =>
    cases h with
    | file data => simp [Node.get?] at hm
    | link target => simp [Node.get?] at hm
    | dir distinct names below =>
      rw [get?_dir_cons, Option.bind_eq_some_iff] at hm
      obtain ⟨child, hchild, hm⟩ := hm
      have hmem := (Keyed.lookup_eq_some_iff distinct).mp hchild
      rcases List.mem_cons.mp hname with rfl | hname
      · exact names _ hmem
      · exact ih (below _ hmem) hm hname

end WellNamed

end Node

/-! ### Directories are their own absolute paths -/

namespace Spot

/-- Names that lead through places which are no links are followed as they stand. -/
theorem resolve_of_get? {files : Node} {mtime : Int} {es : List (String × Node)}
    (hfiles : files.WellNamed) (cwd : List String) (links : Nat) (followed : List Spot)
    (names rest : List String) (hget : files.get? (names ++ rest) = some (.dir mtime es)) :
    resolve files cwd links followed ⟨none, names⟩ rest = .ok ⟨none, names ++ rest⟩ := by
  induction rest generalizing names with
  | nil => simp [resolve]
  | cons name rest ih =>
    have hname : Node.IsName name := hfiles.isName_of_mem hget (by simp)
    have hnext : files.get? ((names ++ [name]) ++ rest) = some (.dir mtime es) := by
      simpa using hget
    have hchild : (Spot.child ⟨none, names⟩ name).place cwd = names ++ [name] := rfl
    -- Were the next name that of a link, there would be no directory in this place or below it.
    have hnolink : ∀ target, files.get? (names ++ [name]) ≠ some (.link target) := by
      intro target hlink
      cases rest with
      | nil => simp [hlink] at hnext
      | cons next rest =>
        obtain ⟨_, _, hdir⟩ := Node.exists_dir_of_get?_append hnext
        simp [hlink] at hdir
    unfold resolve
    rw [if_neg (by simp [hname.ne_empty, hname.ne_dot]), if_neg hname.ne_dots, hchild]
    have hrest : resolve files cwd links followed ((⟨none, names⟩ : Spot).child name) rest =
        .ok ⟨none, names ++ name :: rest⟩ := by
      simpa [Spot.child] using ih (names ++ [name]) hnext
    split
    · next target hlink => exact absurd hlink (hnolink target)
    · exact hrest

end Spot

namespace FileTree

/-- A directory that names lead to is its own absolute path. -/
theorem realPath_of_isDir {t : FileTree} (hnamed : t.root.WellNamed) {names : List String}
    {mtime : Int} {es : List (String × Node)} (hget : t.root.get? names = some (.dir mtime es)) :
    t.realPath ⟨.root, names⟩ = .ok ⟨.root, names⟩ := by
  have hnull : (⟨.root, names⟩ : Path).hasNull = false := by
    simp only [Path.hasNull, List.any_eq_false, List.contains_iff_mem]
    exact fun name hname => (hnamed.isName_of_mem hget hname).no_null
  have hresolve := Spot.resolve_of_get? hnamed t.cwd t.linkNames [] [] names hget
  simp [realPath, hnull, Path.isAbsolute, Spot.root, hresolve, Spot.place]

end FileTree

end LinterSuite
