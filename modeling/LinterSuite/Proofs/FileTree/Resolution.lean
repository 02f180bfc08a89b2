import LinterSuite.Proofs.FileTree.Names

/-!
# Paths through changing trees

A path that leads to a directory meets directories and links on its way, and nothing else. So it
leads to the same directory after a file was written where there was none, or was one before. A path
with one more component leads to an entry of that directory.

## Main definitions

* `Node.Shape`, `Node.shape`: what matters of a place to a path that leads through it
* `Node.AgreesOff`: places with the same shapes but for one
* `FileTree.LeadsTo`: a path that leads to a directory with given entries

## Main results

* `Node.agreesOff_insert_file`: a written file changes no other shape
* `FileTree.LeadsTo.of_agreesOff`: a path leads to the same directory in trees that agree
* `FileTree.LeadsTo.locateFrom_concat`: a path with one more component leads to an entry
* `FileTree.leadsTo_iff`: what leads to a directory is what is resolved to it
-/

namespace LinterSuite

namespace Node

/-- What matters of a place to a path that leads through it. -/
inductive Shape where
  | file
  | link (target : String)
  | dir
  deriving DecidableEq, Repr

/-- The shape of a place. -/
def shape : Node → Shape
  | .file _ => .file
  | .link target => .link target
  | .dir .. => .dir

/-- Two trees that have the same shapes but for one place. -/
def AgreesOff (target : List String) (n n' : Node) : Prop :=
  ∀ names, names ≠ target → (n'.get? names).map shape = (n.get? names).map shape

/-- Nothing is in a place, or a file. -/
def IsFree (place : Option Node) : Prop := place = none ∨ ∃ data, place = some (.file data)

theorem get?_concat {n : Node} {place : List String} {mtime : Int} {es : List (String × Node)}
    (h : n.get? place = some (.dir mtime es)) (name : String) :
    n.get? (place ++ [name]) = es.lookup name := by
  rw [get?_append, h, Option.bind_some, get?_dir_cons]
  cases es.lookup name <;> simp

/-- A file put into a directory is found there. -/
theorem get?_insert {n : Node} {place : List String} {mtime : Int} {es : List (String × Node)}
    (h : n.get? place = some (.dir mtime es)) (time : Int) (name : String) (new : Node) :
    (n.insert time (place ++ [name]) new).get? place =
      some (.dir mtime (Keyed.put es name new)) := by
  induction place generalizing n with
  | nil =>
    obtain rfl : n = .dir mtime es := by simpa using h
    simp [insert]
  | cons first place ih =>
    cases n with
    | file data => simp [get?] at h
    | link target => simp [get?] at h
    | dir mtime' es' =>
      rw [get?_dir_cons, Option.bind_eq_some_iff] at h
      obtain ⟨below, hbelow, h⟩ := h
      rw [List.cons_append, insert, get?_dir_cons, Keyed.lookup_put_self, Option.bind_some, hbelow,
        Option.getD_some]
      exact ih h

/-- A file put where there was none, or was one before, changes no other shape. -/
theorem agreesOff_insert_file {n : Node} {place : List String} {mtime : Int}
    {es : List (String × Node)} (h : n.get? place = some (.dir mtime es)) {name : String}
    (hfree : IsFree (es.lookup name)) (time : Int) (data : FileData) :
    AgreesOff (place ++ [name]) n (n.insert time (place ++ [name]) (.file data)) := by
  induction place generalizing n with
  | nil =>
    obtain rfl : n = .dir mtime es := by simpa using h
    intro names hne
    cases names with
    | nil => simp [insert, shape]
    | cons first names =>
      rw [List.nil_append, insert, get?_dir_cons, get?_dir_cons]
      by_cases hfirst : first = name
      · subst hfirst
        -- Behind the new file there is nothing, as there was before.
        obtain ⟨second, names, rfl⟩ : ∃ second rest, names = second :: rest :=
          List.exists_cons_of_ne_nil fun hnil => hne (by rw [hnil, List.nil_append])
        rcases hfree with hnone | ⟨old, hold⟩
        · simp [hnone, insert, get?]
        · simp [hold, insert, get?]
      · rw [Keyed.lookup_put_of_ne _ hfirst]
  | cons second place ih =>
    cases n with
    | file data => simp [get?] at h
    | link target => simp [get?] at h
    | dir mtime' es' =>
      rw [get?_dir_cons, Option.bind_eq_some_iff] at h
      obtain ⟨below, hbelow, h⟩ := h
      intro names hne
      cases names with
      | nil => simp [insert, shape]
      | cons first names =>
        rw [List.cons_append, insert, get?_dir_cons, get?_dir_cons]
        by_cases hfirst : first = second
        · subst hfirst
          rw [Keyed.lookup_put_self, hbelow, Option.getD_some, Option.bind_some, Option.bind_some]
          exact ih h names fun heq => hne (by rw [heq, List.cons_append])
        · rw [Keyed.lookup_put_of_ne _ hfirst]

/-- Trees that agree have directories in the same places, and the same shapes in them. -/
theorem AgreesOff.exists_dir {target place : List String} {n n' : Node}
    (h : AgreesOff target n n') (hfree : IsFree (n.get? target)) {mtime : Int}
    {es : List (String × Node)} (hdir : n.get? place = some (.dir mtime es)) :
    ∃ mtime' es', n'.get? place = some (.dir mtime' es') ∧
      ∀ name, place ++ [name] ≠ target →
        (es'.lookup name).map shape = (es.lookup name).map shape := by
  have hplace : place ≠ target := by
    rintro rfl
    rcases hfree with hnone | ⟨data, hdata⟩
    · simp [hdir] at hnone
    · simp [hdir] at hdata
  have hshape := h place hplace
  rw [hdir] at hshape
  obtain ⟨node, hnode, hkind⟩ := Option.map_eq_some_iff.mp hshape
  cases node with
  | file data => simp [shape] at hkind
  | link target => simp [shape] at hkind
  | dir mtime' es' =>
    refine ⟨mtime', es', hnode, fun name hname => ?_⟩
    rw [← get?_concat hnode, ← get?_concat hdir]
    exact h _ hname

end Node

namespace FileTree

/-! ### One component -/

section Component

variable {root : Node} {place : List String} {mtime : Int} {es : List (String × Node)}
  (hdir : root.get? place = some (.dir mtime es))

include hdir

theorem locateFrom_dot (follow : Bool) (links : Nat) (rest : List String) :
    locateFrom root follow links place ("." :: rest) = locateFrom root follow links place rest := by
  rw [locateFrom]
  simp only [hdir, if_true]

theorem locateFrom_up (follow : Bool) (links : Nat) (rest : List String) :
    locateFrom root follow links place (".." :: rest) =
      locateFrom root follow links place.dropLast rest := by
  have hne : ¬ ".." = "." := by decide
  rw [locateFrom]
  simp only [hdir, if_neg hne, if_true]

variable {name : String} (hdot : name ≠ ".") (hdots : name ≠ "..")
  (hshort : name.utf8ByteSize ≤ nameLimit)

include hdot hdots hshort

theorem locateFrom_absent (hentry : es.lookup name = none) (follow : Bool) (links : Nat) :
    locateFrom root follow links place [name] = .ok (place ++ [name]) := by
  rw [locateFrom]
  simp only [hdir, if_neg hdot, if_neg hdots, if_neg (Nat.not_lt.mpr hshort), hentry]
  rfl

/-- A link that is not the last component, or that is to be followed. -/
theorem locateFrom_link {text : String} (hentry : es.lookup name = some (.link text))
    {follow : Bool} {rest : List String} (hfollow : (rest.isEmpty && !follow) = false)
    (links : Nat) :
    locateFrom root follow (links + 1) place (name :: rest) =
      locateFrom root follow links (if (Path.ofString text).isAbsolute then [] else place)
        (linkSteps text ++ rest) := by
  rw [locateFrom]
  simp only [hdir, if_neg hdot, if_neg hdots, if_neg (Nat.not_lt.mpr hshort), hentry, hfollow,
    Bool.false_eq_true, if_false]

theorem locateFrom_last_link {text : String} (hentry : es.lookup name = some (.link text))
    (links : Nat) : locateFrom root false links place [name] = .ok (place ++ [name]) := by
  rw [locateFrom]
  simp only [hdir, if_neg hdot, if_neg hdots, if_neg (Nat.not_lt.mpr hshort), hentry]
  rfl

theorem locateFrom_down {n : Node} (hentry : es.lookup name = some n)
    (hlink : ∀ text, n ≠ .link text) (follow : Bool) (links : Nat) (rest : List String) :
    locateFrom root follow links place (name :: rest) =
      locateFrom root follow links (place ++ [name]) rest := by
  rw [locateFrom]
  simp only [hdir, if_neg hdot, if_neg hdots, if_neg (Nat.not_lt.mpr hshort), hentry]

end Component

/-! ### Paths to directories -/

/-- Components that lead from one directory to another, through so many links at most. -/
inductive LeadsTo (root : Node) : Nat → List String → List String → List String → Prop
  | here {links : Nat} {place : List String} {mtime : Int} {es : List (String × Node)}
      (dir : root.get? place = some (.dir mtime es)) : LeadsTo root links place [] place
  | dot {links : Nat} {place rest target : List String} {mtime : Int} {es : List (String × Node)}
      (dir : root.get? place = some (.dir mtime es)) (next : LeadsTo root links place rest target) :
      LeadsTo root links place ("." :: rest) target
  | up {links : Nat} {place rest target : List String} {mtime : Int} {es : List (String × Node)}
      (dir : root.get? place = some (.dir mtime es))
      (next : LeadsTo root links place.dropLast rest target) :
      LeadsTo root links place (".." :: rest) target
  | link {links : Nat} {place rest target : List String} {mtime : Int} {es : List (String × Node)}
      {name text : String} (dir : root.get? place = some (.dir mtime es)) (ne_dot : name ≠ ".")
      (ne_dots : name ≠ "..") (short : name.utf8ByteSize ≤ nameLimit)
      (entry : es.lookup name = some (.link text))
      (next : LeadsTo root links (if (Path.ofString text).isAbsolute then [] else place)
        (linkSteps text ++ rest) target) :
      LeadsTo root (links + 1) place (name :: rest) target
  | down {links : Nat} {place rest target : List String} {mtime mtime' : Int}
      {es es' : List (String × Node)} {name : String} (dir : root.get? place = some (.dir mtime es))
      (ne_dot : name ≠ ".") (ne_dots : name ≠ "..") (short : name.utf8ByteSize ≤ nameLimit)
      (entry : es.lookup name = some (.dir mtime' es'))
      (next : LeadsTo root links (place ++ [name]) rest target) :
      LeadsTo root links place (name :: rest) target

namespace LeadsTo

variable {root root' : Node} {links : Nat} {place components target : List String}

theorem exists_dir (h : LeadsTo root links place components target) :
    ∃ mtime es, root.get? target = some (.dir mtime es) := by
  induction h with
  | here dir => exact ⟨_, _, dir⟩
  | dot _ _ ih | up _ _ ih | link _ _ _ _ _ _ ih | down _ _ _ _ _ _ ih => exact ih

/-- Components that lead to a directory start from one. -/
theorem exists_dir_start (h : LeadsTo root links place components target) :
    ∃ mtime es, root.get? place = some (.dir mtime es) := by
  cases h with
  | here dir | dot dir | up dir | link dir | down dir => exact ⟨_, _, dir⟩

/-- They lead to the same directory in a tree that agrees but for a place without directory. -/
theorem of_agreesOff {free : List String} (hagree : Node.AgreesOff free root root')
    (hfree : Node.IsFree (root.get? free)) (h : LeadsTo root links place components target) :
    LeadsTo root' links place components target := by
  induction h with
  | here dir =>
    obtain ⟨_, _, dir', -⟩ := hagree.exists_dir hfree dir
    exact .here dir'
  | dot dir _ ih =>
    obtain ⟨_, _, dir', -⟩ := hagree.exists_dir hfree dir
    exact .dot dir' ih
  | up dir _ ih =>
    obtain ⟨_, _, dir', -⟩ := hagree.exists_dir hfree dir
    exact .up dir' ih
  | @link _ place _ _ _ _ name text dir ne_dot ne_dots short entry _ ih =>
    obtain ⟨_, es', dir', hshapes⟩ := hagree.exists_dir hfree dir
    -- A link is nothing free, so it is in the other tree as well.
    have hname : place ++ [name] ≠ free := by
      rintro rfl
      rw [Node.get?_concat dir, entry] at hfree
      simp [Node.IsFree] at hfree
    have hshape := hshapes name hname
    rw [entry] at hshape
    obtain ⟨node, entry', hkind⟩ := Option.map_eq_some_iff.mp hshape
    obtain rfl : node = .link text := by
      cases node <;> simp_all [Node.shape]
    exact .link dir' ne_dot ne_dots short entry' ih
  | @down _ place _ _ _ _ _ _ name dir ne_dot ne_dots short entry _ ih =>
    obtain ⟨_, _, dir', -⟩ := hagree.exists_dir hfree dir
    obtain ⟨_, _, below', -⟩ := hagree.exists_dir hfree ((Node.get?_concat dir name).trans entry)
    exact .down dir' ne_dot ne_dots short ((Node.get?_concat dir' name).symm.trans below') ih

/-- One more component leads to the entry of that name, whether or not there is one. A link there
is not followed unless asked for. -/
theorem locateFrom_concat (h : LeadsTo root links place components target) {mtime : Int}
    {es : List (String × Node)} (hdir : root.get? target = some (.dir mtime es)) {name : String}
    (hdot : name ≠ ".") (hdots : name ≠ "..") (hshort : name.utf8ByteSize ≤ nameLimit)
    {follow : Bool} (hlink : follow → ∀ text, es.lookup name ≠ some (.link text)) :
    locateFrom root follow links place (components ++ [name]) = .ok (target ++ [name]) := by
  induction h with
  | here =>
    rw [List.nil_append]
    cases hentry : es.lookup name with
    | none => exact locateFrom_absent hdir hdot hdots hshort hentry ..
    | some n =>
      cases n with
      | file | dir =>
        rw [locateFrom_down hdir hdot hdots hshort hentry (by simp), locateFrom_nil]
      | link text =>
        cases follow with
        | true => exact absurd hentry (hlink rfl text)
        | false => exact locateFrom_last_link hdir hdot hdots hshort hentry ..
  | dot dir _ ih => rw [List.cons_append, locateFrom_dot dir, ih hdir]
  | up dir _ ih => rw [List.cons_append, locateFrom_up dir, ih hdir]
  | link dir ne_dot ne_dots short entry _ ih =>
    rw [List.cons_append, locateFrom_link dir ne_dot ne_dots short entry (by simp),
      ← List.append_assoc, ih hdir]
  | down dir ne_dot ne_dots short entry _ ih =>
    rw [List.cons_append, locateFrom_down dir ne_dot ne_dots short entry (by simp), ih hdir]

/-- The directory is located by a path that is followed to its end. -/
theorem locateFrom_eq (h : LeadsTo root links place components target) :
    locateFrom root true links place components = .ok target := by
  induction h with
  | here => exact locateFrom_nil ..
  | dot dir _ ih => rw [locateFrom_dot dir, ih]
  | up dir _ ih => rw [locateFrom_up dir, ih]
  | link dir ne_dot ne_dots short entry _ ih =>
    rw [locateFrom_link dir ne_dot ne_dots short entry (by simp), ih]
  | down dir ne_dot ne_dots short entry _ ih =>
    rw [locateFrom_down dir ne_dot ne_dots short entry (by simp), ih]

/-- A path that is not followed to its end leads to something as well: the directory, or a last
link. -/
theorem exists_of_not_follow (h : LeadsTo root links place components target) :
    ∃ there n, locateFrom root false links place components = .ok there ∧
      root.get? there = some n := by
  induction h with
  | here dir => exact ⟨_, _, locateFrom_nil .., dir⟩
  | dot dir _ ih =>
    rw [locateFrom_dot dir]
    exact ih
  | up dir _ ih =>
    rw [locateFrom_up dir]
    exact ih
  | @link links place rest _ _ _ name _ dir ne_dot ne_dots short entry _ ih =>
    cases rest with
    | nil =>
      exact ⟨_, _, locateFrom_last_link dir ne_dot ne_dots short entry _,
        (Node.get?_concat dir name).trans entry⟩
    | cons second rest =>
      rw [locateFrom_link dir ne_dot ne_dots short entry rfl]
      exact ih
  | down dir ne_dot ne_dots short entry _ ih =>
    rw [locateFrom_down dir ne_dot ne_dots short entry (by simp)]
    exact ih

end LeadsTo

/-- Components that lead on from a name lead through a directory of that name. -/
theorem LeadsTo.down_of_next {root : Node} {links : Nat} {place rest target : List String}
    {mtime : Int} {es : List (String × Node)} {name : String}
    (dir : root.get? place = some (.dir mtime es)) (ne_dot : name ≠ ".") (ne_dots : name ≠ "..")
    (short : name.utf8ByteSize ≤ nameLimit)
    (next : LeadsTo root links (place ++ [name]) rest target) :
    LeadsTo root links place (name :: rest) target := by
  obtain ⟨_, _, hbelow⟩ := next.exists_dir_start
  rw [Node.get?_concat dir] at hbelow
  exact .down dir ne_dot ne_dots short hbelow next

/-- A path that leads to a directory goes through directories and links only. -/
theorem leadsTo_of_locateFrom {root : Node} {links : Nat} {place components target : List String}
    (h : locateFrom root true links place components = .ok target) {mtime : Int}
    {es : List (String × Node)} (hdir : root.get? target = some (.dir mtime es)) :
    LeadsTo root links place components target := by
  fun_induction locateFrom root true links place components with
  | case1 links place =>
    obtain rfl := Except.ok.inj h
    exact .here hdir
  | case2 links place rest _ _ dir ih => exact .dot dir (ih h)
  | case3 links place rest _ _ dir _ ih => exact .up dir (ih h)
  | case5 links place name rest _ es dir _ _ _ entry =>
    obtain rfl := Except.ok.inj h
    -- A last component without an entry leads to no directory.
    rw [Node.get?_concat dir, entry] at hdir
    simp at hdir
  | case7 _ _ _ rest _ _ _ _ _ _ _ _ hlast => simp at hlast
  | case9 place name rest _ es dir ne_dot ne_dots short text entry _ links ih =>
    exact .link dir ne_dot ne_dots (Nat.not_lt.mp short) entry (ih h)
  | case10 links place name rest _ es dir ne_dot ne_dots short _ _ _ ih =>
    exact .down_of_next dir ne_dot ne_dots (Nat.not_lt.mp short) (ih h)
  | case4 | case6 | case8 | case11 | case12 => cases h

/-- The relation is resolution, as far as directories go. -/
theorem leadsTo_iff {root : Node} {links : Nat} {place components target : List String} :
    LeadsTo root links place components target ↔
      locateFrom root true links place components = .ok target ∧
        ∃ mtime es, root.get? target = some (.dir mtime es) := by
  constructor
  · exact fun h => ⟨h.locateFrom_eq, h.exists_dir⟩
  · rintro ⟨h, mtime, es, hdir⟩
    exact leadsTo_of_locateFrom h hdir

theorem eq_nil_of_concat_eq {components rest : List String} {name first : String}
    (h : components ++ [name] = first :: rest) (hrest : rest = []) :
    components = [] ∧ name = first := by
  subst hrest
  simpa using List.append_eq_singleton_iff.mp h

/-- A path with one more component leads to an entry of a directory. -/
theorem leadsTo_of_locateFrom_concat {root : Node} {follow : Bool} {links : Nat}
    {place components there : List String} {name : String}
    (h : locateFrom root follow links place (components ++ [name]) = .ok there)
    (hdot : name ≠ ".") (hdots : name ≠ "..") :
    name.utf8ByteSize ≤ nameLimit ∧ ∃ target, LeadsTo root links place components target := by
  -- The search takes the components in front of the last one as it would take them alone.
  generalize hall : components ++ [name] = all at h
  fun_induction locateFrom root follow links place all generalizing components with
  | case1 => simp at hall
  | case2 links place rest _ _ dir ih =>
    cases components with
    | nil => exact absurd (List.cons.inj hall).1 hdot
    | cons first components =>
      obtain ⟨rfl, hrest⟩ := List.cons.inj hall
      obtain ⟨hshort, target, hnext⟩ := ih hrest h
      exact ⟨hshort, target, .dot dir hnext⟩
  | case3 links place rest _ _ dir _ ih =>
    cases components with
    | nil => exact absurd (List.cons.inj hall).1 hdots
    | cons first components =>
      obtain ⟨rfl, hrest⟩ := List.cons.inj hall
      obtain ⟨hshort, target, hnext⟩ := ih hrest h
      exact ⟨hshort, target, .up dir hnext⟩
  | case5 links place first rest _ es dir _ _ short _ hlast =>
    obtain ⟨rfl, rfl⟩ := eq_nil_of_concat_eq hall (List.isEmpty_iff.mp hlast)
    exact ⟨Nat.not_lt.mp short, place, .here dir⟩
  | case7 links place first rest _ es dir _ _ short _ _ hlast =>
    obtain ⟨rfl, rfl⟩ :=
      eq_nil_of_concat_eq hall (List.isEmpty_iff.mp (Bool.and_eq_true_iff.mp hlast).1)
    exact ⟨Nat.not_lt.mp short, place, .here dir⟩
  | case9 place first rest _ es dir ne_dot ne_dots short text entry _ links ih =>
    cases components with
    | nil =>
      obtain ⟨rfl, -⟩ := List.cons.inj hall
      exact ⟨Nat.not_lt.mp short, place, .here dir⟩
    | cons first components =>
      obtain ⟨rfl, rfl⟩ := List.cons.inj hall
      obtain ⟨hshort, target, hnext⟩ := ih (List.append_assoc ..) h
      exact ⟨hshort, target, .link dir ne_dot ne_dots (Nat.not_lt.mp short) entry hnext⟩
  | case10 links place first rest _ es dir ne_dot ne_dots short _ _ _ ih =>
    cases components with
    | nil =>
      obtain ⟨rfl, -⟩ := List.cons.inj hall
      exact ⟨Nat.not_lt.mp short, place, .here dir⟩
    | cons first components =>
      obtain ⟨rfl, hrest⟩ := List.cons.inj hall
      obtain ⟨hshort, target, hnext⟩ := ih hrest h
      exact ⟨hshort, target, .down_of_next dir ne_dot ne_dots (Nat.not_lt.mp short) hnext⟩
  | case4 | case6 | case8 | case11 | case12 => cases h

end FileTree

end LinterSuite
