import LinterSuite.Proofs.Glob.Components

/-!
# Crossing directories

Only two stars describe more than one component of a path. An anchored pattern without them matches
paths of as many components as it has, and any other pattern without them looks at the last
component alone.

This takes classes that admit no separator. A negated class never does if the bracket that ends it
is the one that closes it; one that is closed before leaves some of its text behind, where a point
stands for a separator, too. A class without a sign may have a range that holds the separator.

## Main results

* `Glob.Layout.matches_iff_getLast`: one component that is not anchored describes the last one
* `Glob.accepts_of_no_stars`: only two stars cross directories
* `Glob.accepts_crossing`: a class with the separator in a range, and one that is closed early
-/

namespace LinterSuite.Glob

open CharClass (Enlists)

variable {segment text : List Char} {segments parts : List (List Char)} {source path : String}
  {g : Glob} {isDir : Bool}

/-! ### Components of paths -/

theorem Spans.length_eq (hstars : ['*', '*'] ∉ segments) (h : Spans segments parts) :
    parts.length = segments.length := by
  induction h with
  | nil => rfl
  | all | skip => exact absurd List.mem_cons_self hstars
  | one _ _ _ ih => rw [List.length_cons, List.length_cons, ih (mt (List.mem_cons_of_mem _) hstars)]

/-- A pattern that is not anchored has at most one component. -/
theorem components_eq_of_not_anchored (h : ¬ (layout source).anchored) :
    (layout source).components = [] ∨ ∃ segment, (layout source).components = [segment] := by
  simp only [layout, List.contains_iff_mem] at h ⊢
  split
  · exact .inl rfl
  · refine .inr ⟨_, Text.pieces_of_not_mem fun hmem => h ?_⟩
    exact (List.dropWhile_suffix _).subset hmem

theorem splitComponents_ofList (h : separator ∉ text) :
    splitComponents (String.ofList text).toList = [text] := by
  rw [String.toList_ofList, splitComponents, Text.pieces_of_not_mem h]

/-- What is not anchored and has one component describes the last one of a path. -/
theorem Layout.matches_iff_getLast {l : Layout} (hanchored : ¬ l.anchored)
    (hcomponents : l.components = [segment]) (hstars : segment ≠ ['*', '*']) (hparts : parts ≠ []) :
    l.Matches parts isDir ↔ (l.dirOnly → isDir) ∧ Fits segment (parts.getLast hparts) := by
  rw [Matches, hcomponents]
  refine and_congr_right fun _ => ?_
  constructor
  · rintro ⟨-, skipped, rest, rfl, -, hspans⟩
    obtain ⟨part, rest, rfl, hfits, hrest⟩ := (spans_one_iff hstars).mp hspans
    obtain rfl := spans_nil_iff.mp hrest
    rwa [List.getLast_append_of_right_ne_nil _ _ (List.cons_ne_nil _ _)]
  · intro hfits
    exact ⟨List.cons_ne_nil _ _, parts.dropLast, [parts.getLast hparts],
      (List.dropLast_append_getLast hparts).symm, fun h => absurd h hanchored,
      .one hstars hfits .nil⟩

/-- Patterns without two stars as a component do not cross directories, as long as every class is
closed where it ends and none lists a separator: an anchored pattern matches paths of as many
components as it has, and any other matches a path if it matches the last component alone. -/
theorem accepts_of_no_stars (hcompile : compile source = .ok g)
    (hstars : ['*', '*'] ∉ (layout source).components)
    (hclasses : ∀ segment ∈ (layout source).components, ∀ body ∈ classTexts segment,
      Closes body ∧ (¬ isNegated body → ¬ Enlists [] body separator))
    (hpath : ∀ part ∈ splitComponents path.toList, part ≠ []) :
    ((layout source).anchored → g.accepts path isDir →
      (splitComponents path.toList).length = (layout source).components.length) ∧
    (¬ (layout source).anchored → (g.accepts path isDir ↔
      g.accepts (String.ofList ((splitComponents path.toList).getLast (Text.pieces_ne_nil _ _)))
        isDir)) := by
  -- A negated class admits no separator as it is.
  have hclasses' : ∀ segment ∈ (layout source).components, ∀ body ∈ classTexts segment,
      Closes body ∧ ¬ Admits body separator := by
    intro segment hsegment body hbody
    obtain ⟨hcloses, hlists⟩ := hclasses segment hsegment body hbody
    refine ⟨hcloses, ?_⟩
    by_cases hsign : isNegated body
    · exact not_admits_separator hsign
    · rw [admits_iff_enlists hsign]
      exact hlists hsign
  have hparts : splitComponents path.toList ≠ [] := Text.pieces_ne_nil _ _
  constructor
  · intro hanchored haccepts
    obtain ⟨-, -, skipped, rest, hsplit, hskipped, hspans⟩ :=
      (accepts_iff_matches hcompile hclasses' hpath).mp haccepts
    rw [hsplit, hskipped hanchored, List.nil_append]
    exact hspans.length_eq hstars
  · intro hanchored
    have hlast := List.getLast_mem hparts
    have hsingle := splitComponents_ofList (Text.not_mem_of_mem_pieces hlast)
    rw [accepts_iff_matches hcompile hclasses' hpath,
      accepts_iff_matches hcompile hclasses' (by rw [hsingle]; simpa using hpath _ hlast), hsingle]
    rcases components_eq_of_not_anchored hanchored with hnone | ⟨segment, hone⟩
    · simp [Layout.Matches, hnone]
    · have hstars : segment ≠ ['*', '*'] := by
        rintro rfl
        exact hstars (by rw [hone]; exact List.mem_cons_self)
      rw [Layout.matches_iff_getLast hanchored hone hstars hparts,
        Layout.matches_iff_getLast hanchored hone hstars (List.cons_ne_nil _ _),
        List.getLast_singleton]

theorem accepts_of_no_stars_negated : ∃ g, compile "[!a-c]" = .ok g ∧
    ['*', '*'] ∉ (layout "[!a-c]").components ∧
    (∀ segment ∈ (layout "[!a-c]").components, ∀ body ∈ classTexts segment,
      Closes body ∧ (¬ isNegated body → ¬ Enlists [] body separator)) ∧
    (∀ part ∈ splitComponents "c/d".toList, part ≠ []) ∧
    (g.accepts "c/d" false ↔ g.accepts "d" false) := by
  have hlayout : layout "[!a-c]" = ⟨false, false, [['[', '!', 'a', '-', 'c', ']']]⟩ := by decide
  have hcompile := compile_of_parts "[!a-c]"
    [(.one (.oneOf ⟨true, [('/', '/'), ('a', 'c')]⟩),
      .plain '[' :: classMarks ['!', 'a', '-', 'c'])]
    (by rw [hlayout]; decide) (by rw [hlayout]; simp only [List.map_cons, List.map_nil]; cbv)
  have hstars : ['*', '*'] ∉ (layout "[!a-c]").components := by rw [hlayout]; decide
  have htexts : classTexts ['[', '!', 'a', '-', 'c', ']'] = [['!', 'a', '-', 'c']] := by
    have hsplit : splitClass? ['!', 'a', '-', 'c', ']'] = some (['!', 'a', '-', 'c'], []) := by
      decide
    rw [classTexts_class hsplit, classTexts]
  have hclasses : ∀ segment ∈ (layout "[!a-c]").components, ∀ body ∈ classTexts segment,
      Closes body ∧ (¬ isNegated body → ¬ Enlists [] body separator) := by
    rw [hlayout]
    simp only [List.mem_singleton, forall_eq, htexts]
    exact ⟨fun _ => by decide, fun h => absurd rfl h⟩
  have hpath : ∀ part ∈ splitComponents "c/d".toList, part ≠ [] := by decide
  exact ⟨_, hcompile, hstars, hclasses, hpath,
    (accepts_of_no_stars hcompile hstars hclasses hpath).2 (by rw [hlayout]; decide)⟩

/-- A class that lists the separator in a range, and a negated class that is closed early, so that
what comes next stands for any character: paths are matched across a separator, and not for the last
component. -/
theorem accepts_crossing :
    (∃ g, compile "a[.-0]b" = .ok g ∧ (layout "a[.-0]b").components = ["a[.-0]b".toList] ∧
      ¬ (layout "a[.-0]b").anchored ∧ g.accepts "a/b" false ∧ ¬ g.accepts "b" false) ∧
    ∃ g, compile "/[!].]" = .ok g ∧ (layout "/[!].]").components = ["[!].]".toList] ∧
      (layout "/[!].]").anchored ∧ g.accepts "a/]" false := by
  constructor
  · have hlayout : layout "a[.-0]b" = ⟨false, false, ["a[.-0]b".toList]⟩ := by decide
    have hcompile := compile_of_parts "a[.-0]b"
      [(.one (.char 'a'), [⟨'a', true⟩]),
        (.one (.oneOf ⟨false, [('.', '0')]⟩), .plain '[' :: classMarks ['.', '-', '0']),
        (.one (.char 'b'), [⟨'b', true⟩])]
      (by rw [hlayout]; decide) (by rw [hlayout]; simp only [List.map_cons, List.map_nil]; cbv)
    exact ⟨_, hcompile, by rw [hlayout], by rw [hlayout]; decide, by rw [hlayout]; decide,
      by rw [hlayout]; decide⟩
  · have hlayout : layout "/[!].]" = ⟨false, true, ["[!].]".toList]⟩ := by decide
    have hsigns : (layout "/[!].]").signs =
        Sign.ofMarks (Mark.plains ['[', '^', '/', ']', '.', ']']) := by
      rw [hlayout]
      cbv
    obtain ⟨e, hread, hdescribes⟩ : ∃ e, Expression.ofSigns (layout "/[!].]").signs = .ok e ∧
        e.describes "a/]".toList := by
      rw [hsigns]
      exact ⟨_, by cbv, by decide⟩
    refine ⟨_, compile_eq_ok_iff.mpr ⟨e, hread, rfl⟩, by rw [hlayout], by rw [hlayout], ?_⟩
    rw [hlayout]
    exact hdescribes

end LinterSuite.Glob
