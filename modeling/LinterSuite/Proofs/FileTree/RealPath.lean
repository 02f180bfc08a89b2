import LinterSuite.Proofs.FileTree.Entries
import Mathlib.Data.List.Perm.Subperm
import Mathlib.Data.Nat.Find

/-!
# Absolute paths of directories

A path that leads to a directory is resolved to the absolute path of that directory, whatever links
it goes through. Resolution by name gives up on a link that is met again while it is being followed.
This does not happen on the way to a directory: a link that can be followed can be followed through
as few links as possible, and then every link inside takes fewer.

## Main definitions

* `Node.HasLink`, `Node.linkPlaces`: a place of a link, and the places of all links
* `FileTree.Follows`: a name that can be followed to a directory through so many links
* `Spot.Following`: the links that are being followed in a resolution by name
* `FileTree.SameLinks`: two trees with the same links in the same places

## Main results

* `FileTree.LeadsTo.split`: what leads to a directory leads there in two parts
* `Spot.resolve_of_leadsTo`: resolution by name finds the directory that components lead to
* `FileTree.realPath_of_hasDir`: a path that leads to a directory, in this tree or in one with the
  same links, is resolved to it
-/

namespace LinterSuite

/-! ### Places of links -/

namespace Node

/-- There is a link in a place below. -/
def HasLink (n : Node) (place : List String) : Prop :=
  place ≠ [] ∧ ∃ text, n.get? place = some (.link text)

/-- The places of all links in named places and below. -/
def linkPlaces (place : List String) : List (String × Node) → List (List String)
  | [] => []
  | (_, .file _) :: rest => linkPlaces place rest
  | (name, .link _) :: rest => (place ++ [name]) :: linkPlaces place rest
  | (name, .dir _ es) :: rest => linkPlaces (place ++ [name]) es ++ linkPlaces place rest

theorem length_linkPlaces (place : List String) (es : List (String × Node)) :
    (linkPlaces place es).length = linkCount es := by
  fun_induction linkPlaces place es with
  | case1 => simp [linkCount]
  | case2 place _ _ rest ih => rw [ih, linkCount]
  | case3 place name _ rest ih => rw [List.length_cons, ih, linkCount]
  | case4 place name _ es rest ihbelow ih => rw [List.length_append, ihbelow, ih, linkCount]

theorem mem_of_lookup_eq_some {es : List (String × Node)} {name : String} {n : Node}
    (h : es.lookup name = some n) : (name, n) ∈ es := by
  induction es with
  | nil => simp at h
  | cons e es ih =>
    obtain ⟨first, n'⟩ := e
    by_cases hname : name = first
    · subst hname
      obtain rfl : n' = n := by simpa using h
      exact List.mem_cons_self
    · have hne : (name == first) = false := by simpa using hname
      rw [List.lookup_cons, hne] at h
      exact List.mem_cons_of_mem _ (ih h)

theorem mem_linkPlaces_of_link {es : List (String × Node)} {name text : String}
    (h : (name, .link text) ∈ es) (place : List String) :
    place ++ [name] ∈ linkPlaces place es := by
  fun_induction linkPlaces place es with
  | case1 => simp at h
  | case2 place _ _ rest ih => exact ih (by simpa using h)
  | case3 place first _ rest ih =>
    rcases List.mem_cons.mp h with heq | h
    · obtain ⟨rfl, -⟩ := Prod.mk.inj heq
      exact List.mem_cons_self
    · exact List.mem_cons_of_mem _ (ih h)
  | case4 place _ _ _ rest _ ih => exact List.mem_append_right _ (ih (by simpa using h))

theorem mem_linkPlaces_of_dir {es es' : List (String × Node)} {name : String} {mtime : Int}
    (h : (name, .dir mtime es') ∈ es) {place names : List String}
    (hnames : names ∈ linkPlaces (place ++ [name]) es') : names ∈ linkPlaces place es := by
  fun_induction linkPlaces place es with
  | case1 => simp at h
  | case2 place _ _ rest ih => exact ih (by simpa using h) hnames
  | case3 place _ _ rest ih => exact List.mem_cons_of_mem _ (ih (by simpa using h) hnames)
  | case4 place first _ _ rest _ ih =>
    rcases List.mem_cons.mp h with heq | h
    · obtain ⟨rfl, hdir⟩ := Prod.mk.inj heq
      obtain ⟨-, rfl⟩ := Node.dir.inj hdir
      exact List.mem_append_left _ hnames
    · exact List.mem_append_right _ (ih h hnames)

/-- Names that lead to a link lead to one of these places. -/
theorem mem_linkPlaces {n : Node} {names : List String} {text : String}
    (h : n.get? names = some (.link text)) (hne : names ≠ []) (place : List String) :
    place ++ names ∈ linkPlaces place n.entries := by
  induction names generalizing n place with
  | nil => exact absurd rfl hne
  | cons name rest ih =>
    cases n with
    | file | link => simp [get?] at h
    | dir mtime es =>
      rw [get?_dir_cons, Option.bind_eq_some_iff] at h
      obtain ⟨below, hbelow, h⟩ := h
      have hmem := mem_of_lookup_eq_some hbelow
      cases rest with
      | nil =>
        obtain rfl : below = .link text := by simpa using h
        exact mem_linkPlaces_of_link hmem place
      | cons second rest =>
        cases below with
        | file | link => simp [get?] at h
        | dir mtime' es' =>
          have hbelow : place ++ [name] ++ second :: rest ∈ linkPlaces (place ++ [name]) es' :=
            ih h (by simp) (place ++ [name])
          exact mem_linkPlaces_of_dir hmem (by simpa using hbelow)

/-- There are no more links than are counted. -/
theorem length_le_linkCount {n : Node} {places : List (List String)} (hdistinct : places.Nodup)
    (hlinks : ∀ place ∈ places, n.HasLink place) : places.length ≤ linkCount n.entries := by
  have hsubset : places ⊆ linkPlaces [] n.entries := by
    intro place hplace
    obtain ⟨hne, text, hlink⟩ := hlinks place hplace
    exact mem_linkPlaces hlink hne []
  rw [← length_linkPlaces []]
  exact (List.Nodup.subperm hdistinct hsubset).length_le

end Node

/-! ### Parts of the way -/

namespace FileTree

variable {root : Node} {links links' : Nat} {place components target : List String}

/-- More links than are needed do no harm. -/
theorem LeadsTo.mono (h : LeadsTo root links place components target) (hle : links ≤ links') :
    LeadsTo root links' place components target := by
  induction h generalizing links' with
  | here dir => exact .here dir
  | dot dir _ ih => exact .dot dir (ih hle)
  | up dir _ ih => exact .up dir (ih hle)
  | link dir ne_dot ne_dots short entry _ ih =>
    -- A link is used up here, so there is one to use.
    obtain ⟨links', rfl⟩ : ∃ fewer, links' = fewer + 1 := ⟨links' - 1, by omega⟩
    exact .link dir ne_dot ne_dots short entry (ih (by omega))
  | down dir ne_dot ne_dots short entry _ ih => exact .down dir ne_dot ne_dots short entry (ih hle)

/-- Components lead to one directory only. -/
theorem LeadsTo.unique {target' : List String} (h : LeadsTo root links place components target)
    (h' : LeadsTo root links' place components target') : target = target' := by
  -- Both ways are walked with as many links as the longer one needs.
  have hmax := (h.mono (Nat.le_max_left links links')).locateFrom_eq
  have hmax' := (h'.mono (Nat.le_max_right links links')).locateFrom_eq
  exact Except.ok.inj (hmax.symm.trans hmax')

/-- What leads to a directory leads there in two parts. -/
theorem LeadsTo.split {xs ys : List String} (h : LeadsTo root links place (xs ++ ys) target) :
    ∃ middle, LeadsTo root links place xs middle ∧ LeadsTo root links middle ys target := by
  -- The induction is on the whole way; the first part ends as soon as nothing of it is left.
  generalize hall : xs ++ ys = all at h
  induction h generalizing xs with
  | @here links place mtime es dir =>
    obtain ⟨rfl, rfl⟩ := List.append_eq_nil_iff.mp hall
    exact ⟨place, .here dir, .here dir⟩
  | @dot links place rest target mtime es dir next ih =>
    cases xs with
    | nil =>
      rw [List.nil_append] at hall
      exact ⟨place, .here dir, hall ▸ .dot dir next⟩
    | cons first xs =>
      obtain ⟨rfl, rfl⟩ := List.cons.inj hall
      obtain ⟨middle, hxs, hys⟩ := ih rfl
      exact ⟨middle, .dot dir hxs, hys⟩
  | @up links place rest target mtime es dir next ih =>
    cases xs with
    | nil =>
      rw [List.nil_append] at hall
      exact ⟨place, .here dir, hall ▸ .up dir next⟩
    | cons first xs =>
      obtain ⟨rfl, rfl⟩ := List.cons.inj hall
      obtain ⟨middle, hxs, hys⟩ := ih rfl
      exact ⟨middle, .up dir hxs, hys⟩
  | @link links place rest target mtime es name text dir ne_dot ne_dots short entry next ih =>
    cases xs with
    | nil =>
      rw [List.nil_append] at hall
      exact ⟨place, .here dir, hall ▸ .link dir ne_dot ne_dots short entry next⟩
    | cons first xs =>
      obtain ⟨rfl, rfl⟩ := List.cons.inj hall
      obtain ⟨middle, hxs, hys⟩ := ih (List.append_assoc ..)
      exact ⟨middle, .link dir ne_dot ne_dots short entry hxs, hys.mono (Nat.le_succ _)⟩
  | @down links place rest target _ _ _ _ name dir ne_dot ne_dots short entry next ih =>
    cases xs with
    | nil =>
      rw [List.nil_append] at hall
      exact ⟨place, .here dir, hall ▸ .down dir ne_dot ne_dots short entry next⟩
    | cons first xs =>
      obtain ⟨rfl, rfl⟩ := List.cons.inj hall
      obtain ⟨middle, hxs, hys⟩ := ih rfl
      exact ⟨middle, .down dir ne_dot ne_dots short entry hxs, hys⟩

/-- A name that can be followed to a directory through so many links. -/
def Follows (root : Node) (links : Nat) (place : List String) (name : String) : Prop :=
  ∃ target, LeadsTo root links place [name] target

theorem Follows.mono {name : String} (h : Follows root links place name) (hle : links ≤ links') :
    Follows root links' place name := by
  obtain ⟨target, h⟩ := h
  exact ⟨target, h.mono hle⟩

/-- A link that can be followed can be followed in such a way that what it says takes fewer links
than any way to follow the link itself. -/
theorem Follows.shortest {name text : String} {mtime : Int} {es : List (String × Node)}
    (h : Follows root links place name) (dir : root.get? place = some (.dir mtime es))
    (ne_dot : name ≠ ".") (ne_dots : name ≠ "..") (entry : es.lookup name = some (.link text)) :
    ∃ fewer target, fewer < links ∧ ¬ Follows root fewer place name ∧
      LeadsTo root fewer (if (Path.ofString text).isAbsolute then [] else place) (linkSteps text)
        target := by
  classical
  have hexists : ∃ links, Follows root links place name := ⟨links, h⟩
  have hmin : ∀ fewer < Nat.find hexists, ¬ Follows root fewer place name :=
    fun _ hlt => Nat.find_min hexists hlt
  have hle : Nat.find hexists ≤ links := Nat.find_min' hexists h
  obtain ⟨target, hleads⟩ := Nat.find_spec hexists
  -- It is a link, so it was followed as one.
  cases hfind : Nat.find hexists with
  | zero =>
    rw [hfind] at hleads
    cases hleads with
    | dot => exact absurd rfl ne_dot
    | up => exact absurd rfl ne_dots
    | down dir' _ _ _ entry' =>
      rw [dir] at dir'
      obtain ⟨-, rfl⟩ := Node.dir.inj (Option.some.inj dir')
      simp [entry] at entry'
  | succ fewer =>
    rw [hfind] at hleads hmin hle
    cases hleads with
    | dot => exact absurd rfl ne_dot
    | up => exact absurd rfl ne_dots
    | link dir' _ _ _ entry' next =>
      rw [dir] at dir'
      obtain ⟨-, rfl⟩ := Node.dir.inj (Option.some.inj dir')
      obtain rfl : text = _ := Node.link.inj (Option.some.inj (entry.symm.trans entry'))
      exact ⟨fewer, target, by omega, hmin fewer (Nat.lt_succ_self _), by simpa using next⟩
    | down dir' _ _ _ entry' =>
      rw [dir] at dir'
      obtain ⟨-, rfl⟩ := Node.dir.inj (Option.some.inj dir')
      simp [entry] at entry'

end FileTree

/-! ### Resolution by name -/

namespace Spot

variable {root : Node} {cwd : List String}

/-- A place above another is above it under every name. -/
theorem place_up (cwd : List String) (s : Spot) : s.up.place cwd = (s.place cwd).dropLast := by
  obtain ⟨above, names⟩ := s
  cases above with
  | none => cases names <;> rfl
  | some n =>
    by_cases hnames : names = []
    · subst hnames
      simp only [up, place, List.append_nil]
      rw [List.dropLast_eq_take, List.take_take, List.length_take]
      congr 1
      omega
    · obtain ⟨first, rest, rfl⟩ := List.exists_cons_of_ne_nil hnames
      simp [up, place, List.dropLast_append_of_ne_nil]

theorem place_startOf (cwd : List String) (s : Spot) (text : String) :
    (s.startOf text).place cwd =
      if (Path.ofString text).isAbsolute then [] else s.place cwd := by
  have habsolute : text.startsWith "/" = (Path.ofString text).isAbsolute := by
    rw [Bool.eq_iff_iff, String.startsWith_string_iff, Path.isAbsolute_ofString_iff]
    cases text.toList <;> simp [eq_comm]
  unfold startOf
  rw [habsolute]
  split <;> rfl

/-- A piece that says something: it is neither empty nor a dot. -/
def Says (name : String) : Bool := name != "" && name != "."

/-- Pieces that say nothing are passed over. -/
theorem resolve_filter (files : Node) (links : Nat) (followed : List Spot) (s s' : Spot)
    (pieces : List String) :
    resolve files cwd links followed s (pieces.filter Says) = .ok s' ↔
      resolve files cwd links followed s pieces = .ok s' := by
  induction pieces generalizing s with
  | nil => rfl
  | cons name rest ih =>
    by_cases hname : name = "" ∨ name = "."
    · -- Neither side does anything at a piece that says nothing.
      have hsaid : Says name = false := by
        rcases hname with rfl | rfl <;> rfl
      rw [List.filter_cons_of_neg (by simp [hsaid]), ih]
      conv_rhs => rw [resolve, if_pos hname]
    · have hsaid : Says name = true := by
        simpa [Says] using hname
      rw [List.filter_cons_of_pos hsaid, resolve, if_neg hname]
      conv_rhs => rw [resolve, if_neg hname]
      split
      · exact ih _
      · split
        · cases links with
          | zero => simp
          | succ links =>
            dsimp only
            split
            · simp
            · split
              · simp
              · exact ih _
        · exact ih _

theorem filter_piecesOf_eq_parts (text : String) :
    (piecesOf text).filter Says = (Path.ofString text).parts := by
  rw [piecesOf, List.filter_map, Path.ofString, Path.components]
  refine congrArg _ (List.filter_congr fun piece _ => ?_)
  have hempty : String.ofList piece = "" ↔ piece = [] := by
    rw [← String.ofList_nil, String.ofList_inj]
  have hdot : String.ofList piece = "." ↔ piece = ['.'] := by
    rw [show "." = String.ofList ['.'] from rfl, String.ofList_inj]
  rw [Bool.eq_iff_iff]
  simp [Says, hempty, hdot]

/-- The pieces of the text of a link say what its steps say. -/
theorem filter_piecesOf (text : String) :
    (piecesOf text).filter Says = (FileTree.linkSteps text).filter Says := by
  have hparts := filter_piecesOf_eq_parts text
  have hagain : (Path.ofString text).parts.filter Says = (Path.ofString text).parts := by
    rw [← hparts, List.filter_filter]
    simp
  have hdot : ["."].filter Says = [] := by decide
  unfold FileTree.linkSteps
  split
  · rw [List.filter_append, hagain, hparts, hdot, List.append_nil]
  · rw [List.filter_append, hagain, hparts, hdot, List.append_nil]
  · rw [hagain, hparts]

theorem not_mem_linkSteps (text : String) : "" ∉ FileTree.linkSteps text := by
  intro hmem
  have hparts : "" ∉ (Path.ofString text).parts := by
    rw [← filter_piecesOf_eq_parts]
    simp [Says]
  unfold FileTree.linkSteps at hmem
  split at hmem
  · simp [hparts] at hmem
  · simp [hparts] at hmem
  · exact hparts hmem

/-- The links that are being followed. None of them can be followed through so few links as are
left, and they and what is left of the budget are enough for all links. -/
structure Following (root : Node) (cwd : List String) (links budget : Nat)
    (followed : List Spot) : Prop where
  hasLink : ∀ f ∈ followed, root.HasLink (f.place cwd)
  hard : ∀ f ∈ followed, ∀ place name, f.place cwd = place ++ [name] →
    ¬ FileTree.Follows root links place name
  distinct : (followed.map (place cwd)).Nodup
  room : ∀ places : List (List String), places.Nodup → (∀ place ∈ places, root.HasLink place) →
    places.length ≤ budget + followed.length

namespace Following

variable {links budget : Nat} {followed : List Spot} {s : Spot} {name : String}

/-- A link that can be followed is not one of those that are being followed. -/
theorem not_mem (h : Following root cwd links budget followed)
    (hfollows : FileTree.Follows root links (s.place cwd) name) :
    (s.child name).place cwd ∉ followed.map (place cwd) := by
  intro hmem
  obtain ⟨f, hf, hplace⟩ := List.mem_map.mp hmem
  exact h.hard f hf _ _ (hplace.trans (place_child ..)) hfollows

/-- Where another link is, some of the budget is left. -/
theorem exists_budget (h : Following root cwd links budget followed)
    (hlink : root.HasLink (s.place cwd)) (hnew : s.place cwd ∉ followed.map (place cwd)) :
    ∃ left, budget = left + 1 := by
  have hroom := h.room (s.place cwd :: followed.map (place cwd))
    (List.nodup_cons.mpr ⟨hnew, h.distinct⟩)
    (List.forall_mem_cons.mpr ⟨hlink, List.forall_mem_map.mpr h.hasLink⟩)
  rw [List.length_cons, List.length_map] at hroom
  exact ⟨budget - 1, by omega⟩

/-- Another link is followed, which cannot be followed through so few links as are left then. -/
theorem cons (h : Following root cwd links (budget + 1) followed) {fewer : Nat}
    (hfewer : fewer ≤ links) (hnot : ¬ FileTree.Follows root fewer (s.place cwd) name)
    (hlink : root.HasLink ((s.child name).place cwd))
    (hnew : (s.child name).place cwd ∉ followed.map (place cwd)) :
    Following root cwd fewer budget (s.child name :: followed) where
  hasLink := List.forall_mem_cons.mpr ⟨hlink, h.hasLink⟩
  hard := by
    refine List.forall_mem_cons.mpr ⟨fun p n hplace => ?_, fun f hf p n hplace hfollows => ?_⟩
    · rw [place_child] at hplace
      obtain ⟨rfl, hn⟩ := List.append_inj' hplace rfl
      obtain rfl := List.singleton_inj.mp hn
      exact hnot
    · exact h.hard f hf p n hplace (hfollows.mono hfewer)
  distinct := List.nodup_cons.mpr ⟨hnew, h.distinct⟩
  room places hplaces hall := by
    have hlength := h.room places hplaces hall
    rw [List.length_cons]
    omega

end Following

/-- A link that is not being followed is passed by resolving what it says. -/
theorem resolve_link {budget : Nat} {followed : List Spot} {s s' : Spot} {name text : String}
    {rest : List String} (hname : name ≠ "" ∧ name ≠ ".") (hdots : name ≠ "..")
    (hlink : root.get? ((s.child name).place cwd) = some (.link text))
    (hnew : (s.child name).place cwd ∉ followed.map (place cwd))
    (hinside : resolve root cwd budget (s.child name :: followed) (s.startOf text)
      (FileTree.linkSteps text) = .ok s') :
    resolve root cwd (budget + 1) followed s (name :: rest) =
      resolve root cwd (budget + 1) followed s' rest := by
  have hcontains : followed.contains (s.child name) = false :=
    Bool.eq_false_iff.mpr fun hmem =>
      hnew (List.mem_map.mpr ⟨_, List.contains_iff_mem.mp hmem, rfl⟩)
  -- The pieces of what it says are read as its steps.
  have hpieces : resolve root cwd budget (s.child name :: followed) (s.startOf text)
      (piecesOf text) = .ok s' := by
    rwa [← resolve_filter, filter_piecesOf, resolve_filter]
  rw [resolve, if_neg (by simp [hname]), if_neg hdots, hlink]
  simp only [hcontains, hpieces, Bool.false_eq_true, if_false]

/-- Resolution by name finds the directory that components lead to. No link that is being followed
can be followed through so few links as are left, so none of them is met again. -/
theorem resolve_of_leadsTo {links budget : Nat} {followed : List Spot} {s : Spot}
    {components target : List String}
    (h : FileTree.LeadsTo root links (s.place cwd) components target) (hnames : "" ∉ components)
    (hfollowing : Following root cwd links budget followed) :
    ∃ s', resolve root cwd budget followed s components = .ok s' ∧ s'.place cwd = target := by
  -- What is left of the components takes no more links, and what a link says takes fewer.
  induction links using Nat.strongRec generalizing budget followed s components target with
  | ind links ihlinks =>
  induction components generalizing s with
  | nil =>
    cases h with
    | here => exact ⟨s, by rw [resolve], rfl⟩
  | cons name rest ih =>
    obtain ⟨hname, hrest⟩ : "" ≠ name ∧ "" ∉ rest := by simpa using hnames
    cases h with
    | dot dir next =>
      rw [resolve, if_pos (.inr rfl)]
      exact ih next hrest
    | up dir next =>
      rw [resolve, if_neg (by decide), if_pos rfl]
      exact ih (by rwa [place_up]) hrest
    | down dir ne_dot ne_dots _ entry next =>
      have hnode := (Node.get?_concat dir name).trans entry
      rw [resolve, if_neg (by simp [hname.symm, ne_dot]), if_neg ne_dots, place_child, hnode]
      exact ih (by rwa [place_child]) hrest
    | @link links _ _ _ _ _ _ text dir ne_dot ne_dots short entry next =>
      have hnode : root.get? ((s.child name).place cwd) = some (.link text) := by
        rw [place_child]
        exact (Node.get?_concat dir name).trans entry
      obtain ⟨middle, hmiddle, hafter⟩ := next.split
      have hfollows : FileTree.Follows root (links + 1) (s.place cwd) name :=
        ⟨middle, .link dir ne_dot ne_dots short entry (by simpa using hmiddle)⟩
      -- What the link says is resolved with the link among those that are being followed.
      obtain ⟨fewer, there, hfewer, hnot, hinside⟩ :=
        hfollows.shortest dir ne_dot ne_dots entry
      obtain rfl : there = middle := hinside.unique hmiddle
      have hnew := hfollowing.not_mem hfollows
      have hlink : root.HasLink ((s.child name).place cwd) := ⟨by simp [place_child], text, hnode⟩
      obtain ⟨budget, rfl⟩ := hfollowing.exists_budget hlink hnew
      rw [← place_startOf] at hinside
      obtain ⟨s', hresolve, hs'⟩ := ihlinks fewer hfewer hinside (not_mem_linkSteps text)
        (hfollowing.cons (Nat.le_of_lt hfewer) hnot hlink hnew)
      rw [resolve_link ⟨hname.symm, ne_dot⟩ ne_dots hnode hnew hresolve]
      refine ih ?_ hrest
      rw [hs']
      exact hafter.mono (Nat.le_succ _)

/-- Resolution by name depends on the links only. -/
theorem resolve_congr {files files' : Node}
    (h : ∀ names text, files'.get? names = some (.link text) ↔ files.get? names = some (.link text))
    (cwd : List String) (links : Nat) (followed : List Spot) (s : Spot) (pieces : List String) :
    resolve files' cwd links followed s pieces = resolve files cwd links followed s pieces := by
  -- The tree is asked for links and for nothing else.
  fun_induction resolve files cwd links followed s pieces with
  | case1 => rw [resolve]
  | case2 links followed s name rest hname ih => rw [resolve, if_pos hname, ih]
  | case3 links followed s rest hname ih => rw [resolve, if_neg hname, if_pos rfl, ih]
  | case4 followed s name rest hname hdots text hlink =>
    rw [resolve, if_neg hname, if_neg hdots, (h _ _).mpr hlink]
  | case5 followed s name rest hname hdots text hlink links hmem =>
    rw [resolve, if_neg hname, if_neg hdots, (h _ _).mpr hlink]
    simp only [hmem, if_true]
  | case6 followed s name rest hname hdots text hlink links hmem left hleft ih =>
    rw [resolve, if_neg hname, if_neg hdots, (h _ _).mpr hlink]
    simp only [hmem, Bool.false_eq_true, if_false, ih, hleft]
  | case7 followed s name rest hname hdots text hlink links hmem there hthere ihinside ih =>
    rw [resolve, if_neg hname, if_neg hdots, (h _ _).mpr hlink]
    simp only [hmem, Bool.false_eq_true, if_false, ihinside, hthere, ih]
  | case8 links followed s name rest hname hdots hlink ih =>
    have hlink' : ∀ text, files'.get? ((s.child name).place cwd) ≠ some (.link text) :=
      fun text htext => hlink text ((h _ _).mp htext)
    rw [resolve, if_neg hname, if_neg hdots]
    split
    · next text htext => exact absurd htext (hlink' text)
    · exact ih

end Spot

/-! ### Absolute paths -/

namespace FileTree

variable {t t' : FileTree} {dir : Path} {place : List String}

/-- Two trees with the same links in the same places. -/
def SameLinks (t t' : FileTree) : Prop :=
  ∀ names text, t'.root.get? names = some (.link text) ↔ t.root.get? names = some (.link text)

theorem SameLinks.refl (t : FileTree) : t.SameLinks t := fun _ _ => Iff.rfl

/-- A path that leads to a directory is resolved to it, and so it is in a tree with the same
links. -/
theorem realPath_of_hasDir (hlinks : t.SameLinks t') (hcwd : t'.cwd = t.cwd)
    (hdir : t'.HasDir dir place) (hnames : "" ∉ dir.parts) (hnull : dir.hasNull = false) :
    t.realPath dir = .ok ⟨.root, place⟩ := by
  have hstart : (if dir.isAbsolute then Spot.root else .here).place t.cwd =
      if dir.isAbsolute then [] else t'.cwd := by
    rw [hcwd]
    cases dir.isAbsolute
    · simp [Spot.here, Spot.place]
    · rfl
  have hleads : LeadsTo t'.root linkLimit
      ((if dir.isAbsolute then Spot.root else .here).place t.cwd) dir.parts place := by
    rw [hstart]
    exact hdir
  have hnone : Spot.Following t'.root t.cwd linkLimit t.linkNames [] := by
    refine ⟨fun f hf => absurd hf List.not_mem_nil, fun f hf => absurd hf List.not_mem_nil,
      List.nodup_nil, fun places hplaces hall => ?_⟩
    -- There is room for all links at a time.
    have hcount := Node.length_le_linkCount hplaces fun p hp =>
      ⟨(hall p hp).1, (hall p hp).2.imp fun text => (hlinks p text).mp⟩
    exact Nat.le_trans hcount (Nat.le_mul_of_pos_right _ (by omega))
  obtain ⟨s, hresolve, hs⟩ := Spot.resolve_of_leadsTo hleads hnames hnone
  rw [Spot.resolve_congr hlinks] at hresolve
  simp only [realPath, hnull, hresolve, hs]

/-- A component that leads to a directory is not empty. -/
theorem LeadsTo.not_mem_empty {root : Node} (hnamed : root.WellNamed) {links : Nat}
    {components target : List String} (h : LeadsTo root links place components target) :
    "" ∉ components := by
  induction h with
  | here => exact List.not_mem_nil
  | dot _ _ ih => simpa using ih
  | up _ _ ih => simpa using ih
  | @link _ _ _ _ _ _ name _ dir _ _ _ entry _ ih =>
    have hname := hnamed.isName_of_mem ((Node.get?_concat dir name).trans entry)
      (List.mem_append_right _ (List.mem_singleton_self name))
    intro hmem
    rcases List.mem_cons.mp hmem with rfl | hmem
    · exact hname.ne_empty rfl
    · exact ih (List.mem_append_right _ hmem)
  | @down _ _ _ _ _ _ _ _ name dir _ _ _ entry _ ih =>
    have hname := hnamed.isName_of_mem ((Node.get?_concat dir name).trans entry)
      (List.mem_append_right _ (List.mem_singleton_self name))
    intro hmem
    rcases List.mem_cons.mp hmem with rfl | hmem
    · exact hname.ne_empty rfl
    · exact ih hmem

/-- A path that is fit to be worked with and leads to a directory. -/
structure IsDirAt (t : FileTree) (p : Path) (place : List String) : Prop where
  hasDir : t.HasDir p place
  hasNull : p.hasNull = false
  short : p.toString.utf8ByteSize ≤ pathLimit

theorem exists_isDirAt_of_isDir {p : Path} (h : t.isDir p) : ∃ place, t.IsDirAt p place := by
  unfold isDir at h
  split at h
  · next mtime es hstat =>
    obtain ⟨place, hlocate, hget⟩ := lookup_eq_ok_iff.mp hstat
    obtain ⟨hnull, hshort, hlocate⟩ := locate_eq_ok_iff.mp hlocate
    exact ⟨place, leadsTo_of_locateFrom hlocate hget, hnull, hshort⟩
  · exact nomatch h

theorem IsDirAt.realPath (h : t.IsDirAt dir place) (hnamed : t.root.WellNamed) :
    t.realPath dir = .ok ⟨.root, place⟩ :=
  realPath_of_hasDir (SameLinks.refl t) rfl h.hasDir (LeadsTo.not_mem_empty hnamed h.hasDir)
    h.hasNull

end FileTree

end LinterSuite
