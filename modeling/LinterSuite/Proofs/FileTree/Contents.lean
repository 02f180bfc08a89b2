import LinterSuite.FileTree.Changes
import LinterSuite.Proofs.FileTree.Growth

/-!
# Trees with the same contents

Two trees have the same contents if they differ only in times, in what may be run, and in the order
of the entries of directories. Then every path leads to the same in both.

## Main definitions

* `Node.Kind`, `Node.kind`: what a place holds, but for times and permissions
* `FileTree.Alike`: two trees with the same contents

## Main results

* `FileTree.locateFrom_congr`: what paths lead through decides where they lead
* `FileTree.Alike.stat`: a path leads to the same kind of thing
-/

namespace LinterSuite

namespace Node

/-- What a place holds, but for times and permissions. -/
inductive Kind where
  | file (content : List UInt8)
  | link (target : String)
  | dir
  deriving DecidableEq, Repr

/-- What a place holds, but for times, permissions and what is below it. -/
def kind : Node → Kind
  | .file data => .file data.content
  | .link target => .link target
  | .dir .. => .dir

variable {n n' : Option Node}

theorem shape_eq_of_kind (h : n'.map kind = n.map kind) : n'.map shape = n.map shape := by
  rcases n with _ | _ | _ | _ <;> rcases n' with _ | _ | _ | _ <;> simp_all [kind, shape]

theorem eq_link_of_shape {text : String} (h : n'.map shape = n.map shape)
    (hn : n = some (.link text)) : n' = some (.link text) := by
  subst hn
  obtain ⟨m, rfl, hm⟩ := Option.map_eq_some_iff.mp h
  cases m with
  | file | dir => exact nomatch hm
  | link text' =>
    obtain rfl : text' = text := by simpa [shape] using hm
    rfl

/-- Where nothing is made or written, contents stay the same. -/
theorem Becomes.kind_eq {made written : Prop} (h : Becomes made written n n') (hmade : ¬ made)
    (hwritten : ¬ written) : n'.map kind = n.map kind := by
  cases h with
  | same => rfl
  | dir => rfl
  | new h => exact absurd h hmade
  | file h => exact absurd h hwritten

end Node

namespace FileTree

/-! ### Ways through trees of the same shapes -/

section

variable {root root' : Node}
  (h : ∀ names, (root'.get? names).map Node.shape = (root.get? names).map Node.shape)

include h

/-- Directories are in the same places, and the same shapes in them. -/
theorem exists_dir_of_shapes {place : List String} {mtime : Int} {es : List (String × Node)}
    (hdir : root.get? place = some (.dir mtime es)) :
    ∃ mtime' es', root'.get? place = some (.dir mtime' es') ∧
      ∀ name, (es'.lookup name).map Node.shape = (es.lookup name).map Node.shape := by
  have hshape := h place
  rw [hdir] at hshape
  obtain ⟨node, hnode, hkind⟩ := Option.map_eq_some_iff.mp hshape
  cases node with
  | file data => exact nomatch hkind
  | link target => exact nomatch hkind
  | dir mtime' es' =>
    refine ⟨mtime', es', hnode, fun name => ?_⟩
    rw [← Node.get?_concat hnode, ← Node.get?_concat hdir]
    exact h _

/-- Components lead to the same place. -/
theorem locateFrom_congr (follow : Bool) (links : Nat) (place components : List String) :
    locateFrom root' follow links place components =
      locateFrom root follow links place components := by
  -- Nothing that is asked on the way depends on more than shapes: the same case applies in both.
  fun_induction locateFrom root follow links place components with
  | case1 => exact locateFrom_nil ..
  | case2 links place rest _ _ dir ih =>
    obtain ⟨_, _, dir', -⟩ := exists_dir_of_shapes h dir
    rw [locateFrom_dot dir', ih]
  | case3 links place rest _ _ dir _ ih =>
    obtain ⟨_, _, dir', -⟩ := exists_dir_of_shapes h dir
    rw [locateFrom_up dir', ih]
  | case4 links place name rest _ _ dir ne_dot ne_dots long =>
    obtain ⟨_, _, dir', -⟩ := exists_dir_of_shapes h dir
    rw [locateFrom]
    simp only [dir', if_neg ne_dot, if_neg ne_dots, if_pos long]
  | case5 links place name rest _ _ dir ne_dot ne_dots short entry last
  | case6 links place name rest _ _ dir ne_dot ne_dots short entry last =>
    obtain ⟨_, es', dir', hentries⟩ := exists_dir_of_shapes h dir
    have entry' : es'.lookup name = none := by simpa [entry] using hentries name
    rw [locateFrom]
    simp only [dir', if_neg ne_dot, if_neg ne_dots, if_neg short, entry', last]
    rfl
  | case7 links place name rest _ _ dir ne_dot ne_dots short text entry last =>
    obtain ⟨_, es', dir', hentries⟩ := exists_dir_of_shapes h dir
    have entry' := Node.eq_link_of_shape (hentries name) entry
    rw [locateFrom]
    simp only [dir', if_neg ne_dot, if_neg ne_dots, if_neg short, entry', if_pos last]
  | case8 place name rest _ _ dir ne_dot ne_dots short text entry last =>
    obtain ⟨_, es', dir', hentries⟩ := exists_dir_of_shapes h dir
    have entry' := Node.eq_link_of_shape (hentries name) entry
    rw [locateFrom]
    simp only [dir', if_neg ne_dot, if_neg ne_dots, if_neg short, entry', if_neg last]
  | case9 place name rest _ _ dir ne_dot ne_dots short text entry last links ih =>
    obtain ⟨_, es', dir', hentries⟩ := exists_dir_of_shapes h dir
    have entry' := Node.eq_link_of_shape (hentries name) entry
    rw [locateFrom_link dir' ne_dot ne_dots (Nat.not_lt.mp short) entry'
      (Bool.eq_false_iff.mpr last)]
    exact ih
  | case10 links place name rest _ _ dir ne_dot ne_dots short m hlink entry ih =>
    obtain ⟨_, es', dir', hentries⟩ := exists_dir_of_shapes h dir
    have hshape := hentries name
    rw [entry] at hshape
    obtain ⟨m', entry', hm'⟩ := Option.map_eq_some_iff.mp hshape
    have hlink' : ∀ text, m' ≠ .link text := by
      rintro text rfl
      cases m with
      | file | dir => cases hm'
      | link text' => exact hlink text' rfl
    rw [locateFrom_down dir' ne_dot ne_dots (Nat.not_lt.mp short) entry' hlink', ih]
  | case11 links place name rest m hnoDir hm =>
    have hshape := h place
    rw [hm] at hshape
    obtain ⟨m', hm', hkind⟩ := Option.map_eq_some_iff.mp hshape
    rw [locateFrom]
    cases m' with
    | file | link => simp only [hm']
    | dir =>
      cases m with
      | file | link => cases hkind
      | dir mtime es => exact absurd rfl (hnoDir mtime es)
  | case12 links place name rest hnone =>
    have hnone' : root'.get? place = none := by simpa [hnone] using h place
    rw [locateFrom]
    simp only [hnone']

end

/-- Behind paths to the same directory, the same kinds of things are found under the same name. -/
theorem kind_stat_child {t t' : FileTree} {dir : Path} {place : List String} {name : String}
    (hdir : t.HasDir dir place) (hdir' : t'.HasDir dir place) (hname : Node.IsName name)
    (hlink : ∀ text, t.root.get? (place ++ [name]) ≠ some (.link text))
    (hkind : (t'.root.get? (place ++ [name])).map Node.kind =
      (t.root.get? (place ++ [name])).map Node.kind) :
    (t'.stat (dir.child name)).map Node.kind = (t.stat (dir.child name)).map Node.kind := by
  obtain ⟨_, es, hget⟩ := hdir.exists_dir
  obtain ⟨_, es', hget'⟩ := hdir'.exists_dir
  have hlink' : ∀ text, t'.root.get? (place ++ [name]) ≠ some (.link text) := fun text htext =>
    hlink text (Node.eq_link_of_shape (Node.shape_eq_of_kind hkind.symm) htext)
  rw [Node.get?_concat hget] at hlink hkind
  rw [Node.get?_concat hget'] at hlink' hkind
  have hnone : ∀ other ∈ ([] : List String), Node.IsName other := nofun
  have hstat := stat_names hdir hnone hname (by simpa using hget) hlink
  have hstat' := stat_names hdir' hnone hname (by simpa using hget') hlink'
  simp only [List.nil_append] at hstat hstat'
  rw [Path.child, hstat, hstat']
  split_ifs with hnull hlong hshort
  · rfl
  · rfl
  · -- The last name is no link in either, so the entry itself is what is found.
    cases hentry : es.lookup name <;> cases hentry' : es'.lookup name <;>
      simp_all [Except.map]
  · rfl

/-! ### Trees with the same contents -/

/-- A tree with the same contents in the same places. -/
structure Alike (t t' : FileTree) : Prop where
  cwd : t'.cwd = t.cwd
  kinds : ∀ names, (t'.root.get? names).map Node.kind = (t.root.get? names).map Node.kind

namespace Alike

variable {t t' : FileTree}

theorem refl (t : FileTree) : t.Alike t := ⟨rfl, fun _ => rfl⟩

/-- A path leads to the same kind of thing. -/
theorem stat (h : t.Alike t') (p : Path) :
    (t'.stat p).map Node.kind = (t.stat p).map Node.kind := by
  -- Ways depend on shapes only, so both paths lead to one place.
  have hlocate : t'.locate true p = t.locate true p := by
    unfold locate
    rw [h.cwd, locateFrom_congr fun names => Node.shape_eq_of_kind (h.kinds names)]
  unfold FileTree.stat lookup
  rw [hlocate]
  cases t.locate true p with
  | error e => rfl
  | ok place =>
    have hkind := h.kinds place
    simp only [bind, Except.bind]
    cases hn : t.root.get? place with
    | none =>
      have hnone : t'.root.get? place = none := by simpa [hn] using hkind
      rw [hnone]
    | some n =>
      rw [hn] at hkind
      obtain ⟨n', hn', hkind⟩ := Option.map_eq_some_iff.mp hkind
      rw [hn']
      exact congrArg Except.ok hkind

end Alike

end FileTree

end LinterSuite
