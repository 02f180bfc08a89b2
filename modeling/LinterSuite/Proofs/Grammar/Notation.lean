import LinterSuite.Proofs.Grammar.Cut
import Mathlib.Data.List.Chain

/-!
# Writing grammars and reading them

Pieces in normal form are written in one way, and reading finds them again. Every other text is
refused, with the first thing that is wrong with it. The end marks are taken off before anything
else is read, so a dollar sign at the end is no letter of a field, and a percent sign in front of it
is a lone one.

## Main definitions

* `Grammar.IsNormal`: pieces that no reading could have joined
* `Grammar.Encloses`: a text with the end marks that it may have
* `GrammarFault.Blames`: what is wrong with a text, and what is right in front of it

## Main results

* `Grammar.stripAnchors_eq_iff`: what is left without the end marks
* `Grammar.tokensFrom_unparse`: what is written is read back
* `Grammar.unparse_of_tokensFrom`: what is read was written
* `Grammar.tokenize_exact`: reading succeeds exactly on what is written
-/

namespace LinterSuite

theorem Placeholder.letter_ne_percent (p : Placeholder) : p.letter ≠ '%' := by
  cases p <;> decide

/-- What is wrong with a text between its end marks. In front of it there are pieces that can be
read, up to the percent sign at which the fault is. -/
def GrammarFault.Blames (body : List Char) : GrammarFault → Prop
  | empty => body = []
  | dangling => ∃ before, body = Grammar.unparse before ++ ['%']
  | invalid c offset => ∃ before rest, body = Grammar.unparse before ++ '%' :: c :: rest ∧
      offset = (Grammar.unparse before).length ∧ c ≠ '%' ∧ ∀ p : Placeholder, c ≠ p.letter
  | repeated p => ∃ before rest, body = Grammar.unparse before ++ '%' :: p.letter :: rest ∧
      .placeholder p ∈ before

namespace Grammar

/-- Pieces in normal form: there are some, no literal is empty or stands next to another one, and
no field is named twice. -/
structure IsNormal (tokens : List Token) : Prop where
  ne_nil : tokens ≠ []
  filled : ∀ text, .literal text ∈ tokens → text ≠ []
  apart : tokens.IsChain fun t t' => t.field?.isSome ∨ t'.field?.isSome
  distinct : (tokens.filterMap Token.field?).Nodup

/-- A text is another one with at most one caret in front of it, and then at most one dollar sign
behind it. Only a text without a caret in front has none taken off, and only what then ends without
a dollar sign has none of these taken off. -/
def Encloses (cs body : List Char) : Prop :=
  ∃ marked, (cs = '^' :: marked ∨ cs = marked ∧ cs.head? ≠ some '^') ∧
    (marked = body ++ ['$'] ∨ marked = body ∧ body.getLast? ≠ some '$')

variable {cs body held : List Char} {offset : Nat} {seen : List Placeholder}
  {tokens : List Token} {p : Placeholder}

/-! ### End marks -/

/-- A text without a dollar sign behind. -/
def withoutDollar (cs : List Char) : List Char :=
  match cs.getLast? with
  | some '$' => cs.dropLast
  | _ => cs

theorem stripAnchors_caret (cs : List Char) : stripAnchors ('^' :: cs) = withoutDollar cs := rfl

theorem stripAnchors_of_head (h : cs.head? ≠ some '^') : stripAnchors cs = withoutDollar cs := by
  unfold stripAnchors
  split
  · simp at h
  · rfl

theorem withoutDollar_eq_iff :
    withoutDollar cs = body ↔ cs = body ++ ['$'] ∨ cs = body ∧ body.getLast? ≠ some '$' := by
  rcases List.eq_nil_or_concat cs with rfl | ⟨front, c, rfl⟩
  · constructor
    · rintro rfl
      exact .inr ⟨rfl, by simp [withoutDollar]⟩
    · rintro (h | ⟨rfl, -⟩)
      · simp at h
      · rfl
  · rw [List.concat_eq_append]
    by_cases hc : c = '$'
    · subst hc
      have hstrip : withoutDollar (front ++ ['$']) = front := by simp [withoutDollar]
      rw [hstrip]
      constructor
      · rintro rfl
        exact .inl rfl
      · rintro (h | ⟨rfl, hlast⟩)
        · exact List.append_cancel_right h
        · simp at hlast
    · have hstrip : withoutDollar (front ++ [c]) = front ++ [c] := by simp [withoutDollar, hc]
      rw [hstrip]
      constructor
      · rintro rfl
        exact .inr ⟨rfl, by simpa using hc⟩
      · rintro (h | ⟨h, -⟩)
        · exact absurd (List.append_inj_right' h rfl) (by simpa using hc)
        · exact h

/-- What is left without the end marks is what they enclose. -/
theorem stripAnchors_eq_iff : stripAnchors cs = body ↔ Encloses cs body := by
  by_cases hcaret : cs.head? = some '^'
  · obtain ⟨rest, rfl⟩ : ∃ rest, cs = '^' :: rest := by
      cases cs with
      | nil => simp at hcaret
      | cons c rest => exact ⟨rest, by simpa using hcaret⟩
    rw [stripAnchors_caret, withoutDollar_eq_iff]
    simp [Encloses]
  · rw [stripAnchors_of_head hcaret, withoutDollar_eq_iff]
    constructor
    · intro h
      exact ⟨cs, .inr ⟨rfl, hcaret⟩, h⟩
    · rintro ⟨marked, rfl | ⟨rfl, -⟩, h⟩
      · simp at hcaret
      · exact h

/-! ### What is written is read back -/

@[simp] theorem unparse_nil : unparse [] = [] := rfl

@[simp] theorem unparse_cons (t : Token) (tokens : List Token) :
    unparse (t :: tokens) = unparseToken t ++ unparse tokens := rfl

@[simp] theorem unparse_append (tokens others : List Token) :
    unparse (tokens ++ others) = unparse tokens ++ unparse others := List.flatMap_append

@[simp] theorem unparseToken_placeholder (p : Placeholder) :
    unparseToken (.placeholder p) = ['%', p.letter] := rfl

theorem unparseToken_literal_append (text others : List Char) :
    unparseToken (.literal (text ++ others)) =
      unparseToken (.literal text) ++ unparseToken (.literal others) := List.flatMap_append

@[simp] theorem unparseToken_percent : unparseToken (.literal ['%']) = ['%', '%'] := rfl

theorem unparseToken_char {c : Char} (hc : c ≠ '%') : unparseToken (.literal [c]) = [c] := by
  simp [unparseToken, hc]

/-- A character that is no percent sign is held as it is. -/
theorem tokensFrom_char {c : Char} (hc : c ≠ '%') (rest : List Char) :
    tokensFrom offset held seen (c :: rest) = tokensFrom (offset + 1) (c :: held) seen rest := by
  rw [tokensFrom] <;> simp [hc]

/-- Literal text is held until something else is read. -/
theorem tokensFrom_literal (text rest : List Char) :
    tokensFrom offset held seen (unparseToken (.literal text) ++ rest) =
      tokensFrom (offset + (unparseToken (.literal text)).length) (text.reverse ++ held) seen
        rest := by
  induction text generalizing offset held with
  | nil => rfl
  | cons c text ih =>
    have happend := unparseToken_literal_append [c] text
    rw [List.singleton_append] at happend
    rw [happend, List.append_assoc, List.length_append, ← Nat.add_assoc, List.reverse_cons,
      List.append_assoc, List.singleton_append, ← ih]
    by_cases hc : c = '%'
    · subst hc
      rfl
    · rw [unparseToken_char hc, List.singleton_append]
      exact tokensFrom_char hc _

/-- A field that was not named before is read, and the text held so far is a literal in front. -/
theorem tokensFrom_placeholder (hp : p ∉ seen) (rest : List Char) :
    tokensFrom offset held seen ('%' :: p.letter :: rest) =
      (tokensFrom (offset + 2) [] (p :: seen) rest).map
        fun tokens => withLiteral held (.placeholder p :: tokens) := by
  rw [tokensFrom, Placeholder.ofLetter?_eq_some_iff.mpr rfl]
  · simp [hp]
  · simp [Placeholder.letter_ne_percent]

/-- Pieces that are written are read back behind literal text, unless they go on with that text. -/
theorem tokensFrom_unparse (hfilled : ∀ text, .literal text ∈ tokens → text ≠ [])
    (hapart : tokens.IsChain fun t t' => t.field?.isSome ∨ t'.field?.isSome)
    (hdistinct : (tokens.filterMap Token.field?).Nodup)
    (hseen : ∀ p ∈ tokens.filterMap Token.field?, p ∉ seen)
    (hheld : held = [] ∨ ∀ t ∈ tokens.head?, t.field?.isSome) :
    tokensFrom offset held seen (unparse tokens) = .ok (withLiteral held tokens) := by
  induction tokens generalizing offset held seen with
  | nil => rfl
  | cons t tokens ih =>
    have hfilled' : ∀ text, .literal text ∈ tokens → text ≠ [] :=
      fun text htext => hfilled text (List.mem_cons_of_mem _ htext)
    obtain ⟨hnext, hapart'⟩ := List.isChain_cons.mp hapart
    rw [unparse_cons]
    cases t with
    | literal text =>
      -- Its text is held now, and what comes next is a field, or nothing does.
      obtain rfl : held = [] := hheld.resolve_right (by simp)
      have htext : text ≠ [] := hfilled text List.mem_cons_self
      rw [List.filterMap_cons_none (Token.field?_literal text)] at hdistinct hseen
      rw [tokensFrom_literal, ih hfilled' hapart' hdistinct hseen (.inr (by simpa using hnext))]
      simp [withLiteral, htext]
    | placeholder p =>
      rw [List.filterMap_cons_some (Token.field?_placeholder p)] at hdistinct hseen
      obtain ⟨hp, hdistinct'⟩ := List.nodup_cons.mp hdistinct
      obtain ⟨hpseen, hseen'⟩ := List.forall_mem_cons.mp hseen
      rw [unparseToken_placeholder, List.cons_append, List.singleton_append,
        tokensFrom_placeholder hpseen, ih hfilled' hapart' hdistinct' ?_ (.inl rfl)]
      · rfl
      · intro q hq hmem
        rcases List.mem_cons.mp hmem with rfl | hmem
        · exact hp hq
        · exact hseen' q hq hmem

/-! ### What is read was written -/

@[simp] theorem unparse_withLiteral (held : List Char) (tokens : List Token) :
    unparse (withLiteral held tokens) = unparseToken (.literal held.reverse) ++ unparse tokens := by
  unfold withLiteral
  split
  next hheld => simp [List.isEmpty_iff.mp hheld, unparseToken]
  next => rfl

/-- A character that none of the rules on percent signs takes is no percent sign. -/
theorem ne_percent_of_patterns {c : Char} {rest : List Char} (hlone : c = '%' → rest = [] → False)
    (hpair : ∀ c' rest', c = '%' → rest = c' :: rest' → False) : c ≠ '%' := by
  intro hc
  cases rest with
  | nil => exact hlone hc rfl
  | cons c' rest' => exact hpair c' rest' hc rfl

/-- What is read, with the literal text in front of it, was written. -/
theorem unparse_of_tokensFrom (h : tokensFrom offset held seen cs = .ok tokens) :
    unparse tokens = unparseToken (.literal held.reverse) ++ cs := by
  fun_induction tokensFrom offset held seen cs generalizing tokens with
  | case1 offset held seen =>
    obtain rfl := Except.ok.inj h
    simp
  | case2 | case4 | case5 => simp at h
  | case3 offset held seen rest ih =>
    rw [ih h, List.reverse_cons, unparseToken_literal_append, unparseToken_percent]
    simp
  | case6 offset held seen c rest hc p hp hseen ih =>
    obtain ⟨rest', hrest, rfl⟩ := Except.map_eq_ok_iff.mp h
    obtain rfl := Placeholder.ofLetter?_eq_some_iff.mp hp
    rw [unparse_withLiteral, unparse_cons, ih hrest]
    rfl
  | case7 offset held seen c rest hlone _ hpair ih =>
    rw [ih h, List.reverse_cons, unparseToken_literal_append,
      unparseToken_char (ne_percent_of_patterns hlone hpair)]
    simp

/-- No literal that is read is empty or stands next to another one. -/
theorem filled_apart_of_tokensFrom (h : tokensFrom offset held seen cs = .ok tokens) :
    (∀ text, .literal text ∈ tokens → text ≠ []) ∧
      tokens.IsChain fun t t' => t.field?.isSome ∨ t'.field?.isSome := by
  fun_induction tokensFrom offset held seen cs generalizing tokens with
  | case1 offset held seen =>
    obtain rfl := Except.ok.inj h
    by_cases hheld : held = [] <;> simp [withLiteral, hheld]
  | case2 | case4 | case5 => simp at h
  | case3 offset held seen rest ih => exact ih h
  | case6 offset held seen c rest hc p hp hseen ih =>
    obtain ⟨rest', hrest, rfl⟩ := Except.map_eq_ok_iff.mp h
    obtain ⟨hfilled, hapart⟩ := ih hrest
    have hfields : (Token.placeholder p :: rest').IsChain
        fun t t' => t.field?.isSome ∨ t'.field?.isSome :=
      List.isChain_cons.mpr ⟨fun _ _ => .inl rfl, hapart⟩
    by_cases hheld : held = []
    · refine ⟨fun text htext => ?_, by simpa [withLiteral, hheld] using hfields⟩
      exact hfilled text (by simpa [withLiteral, hheld] using htext)
    · -- The text held so far is a literal between two fields, or the first piece.
      have hcons : withLiteral held (.placeholder p :: rest') =
          .literal held.reverse :: .placeholder p :: rest' := by simp [withLiteral, hheld]
      rw [hcons]
      refine ⟨fun text htext => ?_, List.isChain_cons_cons.mpr ⟨.inr rfl, hfields⟩⟩
      rcases List.mem_cons.mp htext with heq | htext
      · obtain rfl := Token.literal.inj heq
        simpa using hheld
      · exact hfilled text (by simpa using htext)
  | case7 offset held seen c rest _ _ _ ih => exact ih h

/-! ### What is refused -/

/-- A fault behind pieces that were read is a fault of the whole text. The pieces are taken one
character at a time where they are literal, since the fault does not depend on how they are
joined. -/
theorem blames_of_tokensFrom {fault : GrammarFault} {before : List Token}
    (h : tokensFrom offset held seen cs = .error fault)
    (hoffset : offset = (unparse before).length) (hseen : ∀ p ∈ seen, .placeholder p ∈ before) :
    fault.Blames (unparse before ++ cs) := by
  fun_induction tokensFrom offset held seen cs generalizing before with
  | case1 => simp at h
  | case2 offset held seen =>
    obtain rfl := Except.error.inj h
    exact ⟨before, rfl⟩
  | case3 offset held seen rest ih =>
    have hblames : fault.Blames (unparse (before ++ [.literal ['%']]) ++ rest) :=
      ih h (by simp [hoffset]) fun p hp => List.mem_append_left _ (hseen p hp)
    simpa using hblames
  | case4 offset held seen c rest hc hnone =>
    obtain rfl := Except.error.inj h
    refine ⟨before, rest, rfl, hoffset, hc, fun p hp => ?_⟩
    rw [Placeholder.ofLetter?_eq_some_iff.mpr hp] at hnone
    cases hnone
  | case5 offset held seen c rest hc p hp hmem =>
    obtain rfl := Except.error.inj h
    obtain rfl := Placeholder.ofLetter?_eq_some_iff.mp hp
    exact ⟨before, rest, rfl, hseen p hmem⟩
  | case6 offset held seen c rest hc p hp hnew ih =>
    obtain rfl := Placeholder.ofLetter?_eq_some_iff.mp hp
    have hseen' : ∀ q ∈ p :: seen, .placeholder q ∈ before ++ [.placeholder p] := by
      intro q hq
      rcases List.mem_cons.mp hq with rfl | hq
      · simp
      · exact List.mem_append_left _ (hseen q hq)
    have hblames : fault.Blames (unparse (before ++ [.placeholder p]) ++ rest) :=
      ih (Except.map_eq_error_iff.mp h) (by simp [hoffset]) hseen'
    simpa using hblames
  | case7 offset held seen c rest hlone _ hpair ih =>
    have hc := unparseToken_char (ne_percent_of_patterns hlone hpair)
    have hblames : fault.Blames (unparse (before ++ [.literal [c]]) ++ rest) :=
      ih h (by simp [hoffset, hc]) fun p hp => List.mem_append_left _ (hseen p hp)
    simpa [hc] using hblames

/-! ### Reading a whole text -/

theorem unparse_ne_nil (h : IsNormal tokens) : unparse tokens ≠ [] := by
  obtain ⟨t, tokens, rfl⟩ := List.exists_cons_of_ne_nil h.ne_nil
  rw [unparse_cons]
  refine List.append_ne_nil_of_left_ne_nil ?_ _
  cases t with
  | literal text =>
    obtain ⟨c, text, rfl⟩ := List.exists_cons_of_ne_nil (h.filled text List.mem_cons_self)
    by_cases hc : c = '%' <;> simp [unparseToken, hc]
  | placeholder p => simp

theorem tokenizeChars_eq_ok_iff :
    tokenizeChars cs = .ok tokens ↔ IsNormal tokens ∧ stripAnchors cs = unparse tokens := by
  constructor
  · intro h
    have hdistinct := nodup_of_tokenizeChars h
    by_cases hempty : (stripAnchors cs).isEmpty
    · simp [tokenizeChars, hempty] at h
    · rw [tokenizeChars, if_neg hempty] at h
      obtain ⟨hfilled, hapart⟩ := filled_apart_of_tokensFrom h
      have hunparse : unparse tokens = stripAnchors cs := unparse_of_tokensFrom h
      refine ⟨⟨?_, hfilled, hapart, hdistinct⟩, hunparse.symm⟩
      rintro rfl
      exact hempty (by rw [← hunparse]; rfl)
  · rintro ⟨hnormal, hstrip⟩
    have hempty : ¬ (stripAnchors cs).isEmpty := by
      rw [hstrip, List.isEmpty_iff]
      exact unparse_ne_nil hnormal
    rw [tokenizeChars, if_neg hempty, hstrip]
    exact tokensFrom_unparse hnormal.filled hnormal.apart hnormal.distinct (by simp) (.inl rfl)

theorem blames_of_tokenizeChars {fault : GrammarFault} (h : tokenizeChars cs = .error fault) :
    fault.Blames (stripAnchors cs) := by
  by_cases hempty : (stripAnchors cs).isEmpty
  · rw [tokenizeChars, if_pos hempty] at h
    obtain rfl := Except.error.inj h
    exact List.isEmpty_iff.mp hempty
  · rw [tokenizeChars, if_neg hempty] at h
    have hblames : fault.Blames (unparse [] ++ stripAnchors cs) :=
      blames_of_tokensFrom h rfl (by simp)
    exact hblames

theorem encloses_marked (body : List Char) : Encloses ('^' :: body ++ ['$']) body :=
  ⟨body ++ ['$'], .inl rfl, .inl rfl⟩

/-- A text is read as some pieces exactly if these are in normal form and the text, without its end
marks, is what they are written as. Every other text is refused with its fault. Pieces in normal
form that are written between end marks are read back. -/
theorem tokenize_exact (source : String) :
    (∀ tokens, tokenize source = .ok tokens ↔
      IsNormal tokens ∧ Encloses source.toList (unparse tokens)) ∧
    ((¬ ∃ tokens, IsNormal tokens ∧ Encloses source.toList (unparse tokens)) →
      ∃ fault body, tokenize source = .error ⟨source, fault⟩ ∧ Encloses source.toList body ∧
        fault.Blames body) ∧
    ∀ tokens, IsNormal tokens →
      tokenize (String.ofList ('^' :: unparse tokens ++ ['$'])) = .ok tokens := by
  have hread : ∀ (source : String) (tokens : List Token), tokenize source = .ok tokens ↔
      IsNormal tokens ∧ Encloses source.toList (unparse tokens) := by
    intro source tokens
    rw [tokenize, Except.mapError_eq_ok_iff, tokenizeChars_eq_ok_iff, stripAnchors_eq_iff]
  refine ⟨hread source, fun hno => ?_, fun tokens hnormal => ?_⟩
  · cases hchars : tokenizeChars source.toList with
    | ok tokens =>
      have hok : tokenize source = .ok tokens := by rw [tokenize, hchars]; rfl
      exact absurd ⟨tokens, (hread source tokens).mp hok⟩ hno
    | error fault =>
      exact ⟨fault, stripAnchors source.toList, by rw [tokenize, hchars]; rfl,
        stripAnchors_eq_iff.mp rfl, blames_of_tokenizeChars hchars⟩
  · rw [hread, String.toList_ofList]
    exact ⟨hnormal, encloses_marked _⟩

/-- A doubled percent sign between carets and a field, with both end marks; and a text whose last
percent sign is a lone one only because the dollar sign behind it is an end mark. -/
theorem tokenize_exact_end_marks :
    let tokens : List Token := [.literal ['^', '%', '^'], .placeholder .file]
    IsNormal tokens ∧ Encloses "^^%%^%f$".toList (unparse tokens) ∧
      tokenize "^^%%^%f$" = .ok tokens ∧
      tokenize (String.ofList ('^' :: unparse tokens ++ ['$'])) = .ok tokens ∧
      (¬ ∃ tokens, IsNormal tokens ∧ Encloses "%f%$".toList (unparse tokens)) ∧
      ∃ fault body, tokenize "%f%$" = .error ⟨"%f%$", fault⟩ ∧ Encloses "%f%$".toList body ∧
        fault.Blames body := by
  intro tokens
  have hnormal : IsNormal tokens := ⟨by simp [tokens], by simp [tokens], by simp [tokens],
    by decide⟩
  have hencloses : Encloses "^^%%^%f$".toList (unparse tokens) := by
    have hmarked : "^^%%^%f$".toList = '^' :: unparse tokens ++ ['$'] := by rfl
    rw [hmarked]
    exact encloses_marked _
  have hno : ¬ ∃ tokens, IsNormal tokens ∧ Encloses "%f%$".toList (unparse tokens) := by
    rintro ⟨other, hother⟩
    have hok := ((tokenize_exact "%f%$").1 other).mpr hother
    exact nomatch hok
  exact ⟨hnormal, hencloses, ((tokenize_exact _).1 tokens).mpr ⟨hnormal, hencloses⟩,
    (tokenize_exact "").2.2 tokens hnormal, hno, (tokenize_exact "%f%$").2.1 hno⟩

end Grammar

end LinterSuite
