import LinterSuite.Proofs.Json.Blocks

/-!
# What keeps a text from being read

Besides being malformed there are two reasons for which a text is refused, and both can be found in
it: a run of digits that is too long, and more opening brackets than values may be nested. So a text
without such a run and with few brackets is read or malformed. Both reasons do occur. The fuel of
the reader is never a reason.

## Main definitions

* `Json.openings`: the number of opening brackets and braces
* `Json.HasRun`: a text with a run of so many digits
* `Json.Accounts`: a reading together with what it says about the text
* `Json.FuelSuffices`: fuel of which one step more changes nothing

## Main results

* `Json.accounts_value`: what the reading of a value says about the text
* `Json.value_of_more_fuel`: a document gets enough fuel
* `Json.read_eq_error`: the reasons for which a document is refused
* `Json.read_of_modest`: a text with neither is read or malformed
* `Json.read_of_long`, `Json.read_of_deep`: documents that are refused for them
-/

namespace LinterSuite.Json

open Text (Read ReadError)

/-- The number of brackets and braces with which arrays and objects begin. -/
def openings (cs : List Char) : Nat := cs.countP fun c => c = '[' ∨ c = '\x7b'

/-- A text with a run of so many digits. -/
def HasRun (n : Nat) (cs : List Char) : Prop :=
  ∃ digits, digits <:+: cs ∧ digits.length = n ∧ ∀ c ∈ digits, c.isDigit

/-- A reading, with room for so many arrays and objects in each other, says something about the
text: what is left is the end of it, and the reason for a refusal can be found in it. -/
def Accounts {α : Type} (room : Nat) (cs : List Char) : Read α → Prop
  | .ok r => r.2 <:+ cs
  | .error .malformed => True
  | .error (.numeral e) => Text.numeralLimit < e.digits ∧ HasRun e.digits cs
  | .error (.tooDeep _) => room < openings cs

section

variable {α β : Type} {room : Nat} {cs rest : List Char}

/-- What can be found in the end of a text can be found in the text. -/
theorem Accounts.of_suffix {r : Read α} (h : Accounts room rest r) (hrest : rest <:+ cs) :
    Accounts room cs r := by
  rcases r with (_ | e | _) | r
  · trivial
  · obtain ⟨hlong, digits, hinfix, hdigits⟩ := h
    exact ⟨hlong, digits, hinfix.trans hrest.isInfix, hdigits⟩
  · exact Nat.lt_of_lt_of_le h (hrest.sublist.countP_le)
  · exact List.IsSuffix.trans h hrest

/-- What an array or an object says about the text behind its opening bracket. -/
theorem Accounts.of_opening {r : Read α} {c : Char} (hc : c = '[' ∨ c = '\x7b')
    (h : Accounts (room - 1) rest r) : Accounts room (c :: rest) r := by
  rcases r with (_ | e | _) | r
  · trivial
  · -- A numeral is as long whatever room there is for brackets.
    have hlong : Accounts room rest (.error (.numeral e) : Read α) := h
    exact hlong.of_suffix (List.suffix_cons c rest)
  · have hcount : openings (c :: rest) = openings rest + 1 := by simp [openings, hc]
    have hdeep : room - 1 < openings rest := h
    change room < openings (c :: rest)
    omega
  · exact List.IsSuffix.trans h (List.suffix_cons c rest)

theorem Accounts.of_error {e : ReadError} (h : Accounts room cs (.error e : Read α)) :
    Accounts room cs (.error e : Read β) := by
  rcases e with _ | e | _ <;> exact h

theorem Accounts.map {r : Read α} (h : Accounts room cs r) (f : α → β) :
    Accounts room cs (r.map fun r => (f r.1, r.2)) := by
  rcases r with (_ | e | _) | r <;> exact h

end

/-! ### Scalar values -/

theorem skipBlanks_suffix (cs : List Char) : skipBlanks cs <:+ cs := List.dropWhile_suffix _

/-- What is behind the first character that is no blank. -/
theorem suffix_of_skipBlanks {c : Char} {cs rest : List Char} (h : skipBlanks cs = c :: rest) :
    rest <:+ cs := by
  have hsuffix := skipBlanks_suffix cs
  rw [h] at hsuffix
  exact (List.suffix_cons c rest).trans hsuffix

theorem stringBody?_suffix {cs rest : List Char} {ns : List Nat}
    (h : stringBody? cs = some (ns, rest)) : rest <:+ cs := by
  fun_induction stringBody? cs generalizing ns rest with
  | case1 => cases h
  | case2 cs =>
    obtain ⟨-, rfl⟩ := Prod.mk.inj (Option.some.inj h)
    exact List.suffix_cons _ _
  | case3 a b c d cs ih =>
    simp only [Option.bind_eq_bind, Option.bind_eq_some_iff] at h
    obtain ⟨n, -, ⟨ns', rest'⟩, hbody, heq⟩ := h
    obtain ⟨-, rfl⟩ := Prod.mk.inj (Option.some.inj heq)
    exact (ih hbody).trans ⟨['\\', 'u', a, b, c, d], rfl⟩
  | case4 e cs hshort ih =>
    simp only [Option.bind_eq_bind, Option.bind_eq_some_iff] at h
    obtain ⟨n, -, ⟨ns', rest'⟩, hbody, heq⟩ := h
    obtain ⟨-, rfl⟩ := Prod.mk.inj (Option.some.inj heq)
    exact (ih hbody).trans ⟨['\\', e], rfl⟩
  | case5 => cases h
  | case6 c cs hquote hunit hescape hgood ih =>
    obtain ⟨⟨ns', rest'⟩, hbody, heq⟩ := Option.map_eq_some_iff.mp h
    obtain ⟨-, rfl⟩ := Prod.mk.inj heq
    exact (ih hbody).trans (List.suffix_cons _ _)

theorem text?_suffix {cs rest : List Char} {s : Option String} (h : text? cs = some (s, rest)) :
    rest <:+ cs := by
  obtain ⟨⟨ns, rest'⟩, hbody, heq⟩ := Option.map_eq_some_iff.mp h
  obtain ⟨-, rfl⟩ := Prod.mk.inj heq
  exact stringBody?_suffix hbody

theorem splitFraction_suffix (cs : List Char) : (splitFraction cs).2 <:+ cs := by
  unfold splitFraction
  split
  · dsimp only
    split
    · exact List.suffix_rfl
    · exact (List.dropWhile_suffix _).trans (List.suffix_cons _ _)
  · exact List.suffix_rfl

theorem splitSign_suffix (cs : List Char) : (Binary64.splitSign cs).2 <:+ cs := by
  unfold Binary64.splitSign
  split
  · exact List.suffix_cons _ _
  · exact List.suffix_cons _ _
  · exact List.suffix_rfl

theorem splitExponent_suffix (cs : List Char) : (splitExponent cs).2 <:+ cs := by
  unfold splitExponent
  split
  · next e rest =>
    split
    · dsimp only
      split
      · exact List.suffix_rfl
      · exact ((List.dropWhile_suffix _).trans (splitSign_suffix rest)).trans (List.suffix_cons _ _)
    · exact List.suffix_rfl
  · exact List.suffix_rfl

/-- A number that is refused is a run of digits. -/
theorem accounts_unsigned (negative : Bool) (room : Nat) (cs : List Char) :
    Accounts room cs (unsigned negative cs) := by
  unfold unsigned
  extract_lets whole number
  have hrest : (splitExponent (splitFraction (cs.drop whole.length)).2).2 <:+ cs :=
    ((splitExponent_suffix _).trans (splitFraction_suffix _)).trans (List.drop_suffix _ _)
  -- The digits that are counted stand in front, so they are the run that is too long.
  have hwhole : whole <+: cs ∧ ∀ c ∈ whole, c.isDigit := by
    simp only [whole]
    split
    · exact ⟨⟨_, rfl⟩, List.forall_mem_singleton.mpr rfl⟩
    · exact ⟨List.takeWhile_prefix _, fun c => List.all_eq_true.mp List.all_takeWhile c⟩
  dsimp only
  split
  · trivial
  · split
    · split
      · next hlong => exact ⟨hlong, whole, hwhole.1.isInfix, rfl, hwhole.2⟩
      · exact hrest
    · exact hrest

theorem accounts_atom (room : Nat) (cs : List Char) : Accounts room cs (atom cs) := by
  unfold atom
  split
  · exact List.drop_suffix _ _
  · split
    · exact (accounts_unsigned true room _).of_suffix (List.suffix_cons _ _)
    · exact accounts_unsigned false room cs

/-! ### Arrays and objects -/

/-- What readings with so much fuel say about texts. -/
structure AccountsFor (fuel : Nat) : Prop where
  value (room : Nat) (cs : List Char) : Accounts room cs (value fuel room cs)
  items (room : Nat) (cs : List Char) : Accounts room cs (items fuel room cs)
  members (room : Nat) (t : Table) (cs : List Char) : Accounts room cs (members fuel room t cs)

namespace AccountsFor

variable {fuel : Nat} (h : AccountsFor fuel) (room : Nat)

include h

theorem value_succ (cs : List Char) : Accounts room cs (Json.value (fuel + 1) room cs) := by
  -- The first character decides: a string, an array, an object, or something without parts.
  rw [Json.value.eq_def]
  dsimp only
  split
  · next rest =>
    split
    · trivial
    · next s rest' htext => exact (text?_suffix htext).trans (List.suffix_cons _ _)
  · next rest =>
    split_ifs with hroom
    · subst hroom
      exact Nat.pos_of_ne_zero (by simp [openings])
    · split
      · next rest' hclose =>
        exact (suffix_of_skipBlanks hclose).trans (List.suffix_cons _ _)
      · exact (((h.items _ _).of_suffix (skipBlanks_suffix rest)).of_opening (.inl rfl)).map _
  · next rest =>
    split_ifs with hroom
    · subst hroom
      exact Nat.pos_of_ne_zero (by simp [openings])
    · split
      · next rest' hclose =>
        exact (suffix_of_skipBlanks hclose).trans (List.suffix_cons _ _)
      · exact (((h.members _ _ _).of_suffix (skipBlanks_suffix rest)).of_opening (.inr rfl)).map _
  · exact accounts_atom room cs

theorem items_succ (cs : List Char) : Accounts room cs (Json.items (fuel + 1) room cs) := by
  rw [Json.items]
  have hvalue := h.value room cs
  split
  · next e herror =>
    rw [herror] at hvalue
    exact hvalue.of_error
  · next v rest hread =>
    rw [hread] at hvalue
    split
    · next rest' hclose => exact (suffix_of_skipBlanks hclose).trans hvalue
    · next rest' hcomma =>
      have hbehind : rest' <:+ cs := (suffix_of_skipBlanks hcomma).trans hvalue
      exact ((h.items room _).of_suffix ((skipBlanks_suffix rest').trans hbehind)).map _
    · trivial

/-- What is behind the key of a member. -/
theorem behind_key {t : Table} {rest : List Char} {key : Option String} {cs : List Char}
    (hrest : rest <:+ cs) :
    Accounts room cs (match skipBlanks rest with
      | ':' :: rest =>
        match Json.value fuel room (skipBlanks rest) with
        | .error e => .error e
        | .ok (v, rest) =>
          let t := (key.map fun k => Table.put t k v).getD t
          match skipBlanks rest with
          | '\x7d' :: rest => .ok (t, rest)
          | ',' :: rest => Json.members fuel room t (skipBlanks rest)
          | _ => .error .malformed
      | _ => .error .malformed) := by
  split
  · next rest' hcolon =>
    have hkey : rest' <:+ cs := (suffix_of_skipBlanks hcolon).trans hrest
    have hvalue :=
      (h.value room (skipBlanks rest')).of_suffix ((skipBlanks_suffix rest').trans hkey)
    split
    · next e herror =>
      rw [herror] at hvalue
      exact hvalue.of_error
    · next v behind hread =>
      rw [hread] at hvalue
      dsimp only
      split
      · next others hclose => exact (suffix_of_skipBlanks hclose).trans hvalue
      · next others hcomma =>
        have hbehind : others <:+ cs := (suffix_of_skipBlanks hcomma).trans hvalue
        exact (h.members room _ _).of_suffix ((skipBlanks_suffix others).trans hbehind)
      · trivial
  · trivial

theorem members_succ (t : Table) (cs : List Char) :
    Accounts room cs (Json.members (fuel + 1) room t cs) := by
  rw [Json.members.eq_def]
  dsimp only
  split
  · split
    · trivial
    · next key rest htext =>
      exact h.behind_key room ((text?_suffix htext).trans (List.suffix_cons _ _))
  · trivial

end AccountsFor

theorem accountsFor (fuel : Nat) : AccountsFor fuel := by
  -- By induction on the fuel, for the three readings at once: each of them calls the others with
  -- less fuel.
  induction fuel with
  | zero => exact ⟨fun _ _ => trivial, fun _ _ => trivial, fun _ _ _ => trivial⟩
  | succ fuel ih => exact ⟨ih.value_succ, ih.items_succ, ih.members_succ⟩

/-! ### Fuel -/

theorem length_of_value {fuel room : Nat} {cs rest : List Char} {v : Value}
    (h : value fuel room cs = .ok (v, rest)) : rest.length ≤ cs.length := by
  have hvalue := (accountsFor fuel).value room cs
  rw [h] at hvalue
  exact List.IsSuffix.length_le hvalue

/-- What is behind a value and a comma is shorter than what the value was read from. -/
theorem length_behind {fuel room : Nat} {cs rest rest' : List Char} {v : Value}
    (hread : value fuel room cs = .ok (v, rest)) (hcomma : skipBlanks rest = ',' :: rest') :
    (skipBlanks rest').length < cs.length := by
  have hvalue := length_of_value hread
  have hbehind := (skipBlanks_suffix rest).length_le
  have hnext := (skipBlanks_suffix rest').length_le
  rw [hcomma, List.length_cons] at hbehind
  omega

/-- One more step of fuel changes nothing for texts that are short enough. -/
structure FuelSuffices (fuel : Nat) : Prop where
  value {cs : List Char} (h : 2 * cs.length < fuel) (room : Nat) :
    value (fuel + 1) room cs = value fuel room cs
  items {cs : List Char} (h : 2 * cs.length + 1 < fuel) (room : Nat) :
    items (fuel + 1) room cs = items fuel room cs
  members {cs : List Char} (h : 2 * cs.length + 1 < fuel) (room : Nat) (t : Table) :
    members (fuel + 1) room t cs = members fuel room t cs

namespace FuelSuffices

variable {fuel : Nat} (h : FuelSuffices fuel) {cs : List Char}

include h

theorem value_succ (hfuel : 2 * cs.length < fuel + 1) (room : Nat) :
    Json.value (fuel + 2) room cs = Json.value (fuel + 1) room cs := by
  -- A bracket is taken off the text before the rest of it is read.
  have hrest : ∀ {c : Char} {rest : List Char}, cs = c :: rest →
      2 * (skipBlanks rest).length + 1 < fuel := by
    rintro c rest rfl
    have hlength := (skipBlanks_suffix rest).length_le
    rw [List.length_cons] at hfuel
    omega
  rw [Json.value.eq_def, Json.value.eq_def (fuel + 1)]
  dsimp only
  split
  · rfl
  · split_ifs
    · rfl
    · split
      · rfl
      · rw [h.items (hrest rfl)]
  · split_ifs
    · rfl
    · split
      · rfl
      · rw [h.members (hrest rfl)]
  · rfl

theorem items_succ (hfuel : 2 * cs.length + 1 < fuel + 1) (room : Nat) :
    Json.items (fuel + 2) room cs = Json.items (fuel + 1) room cs := by
  rw [Json.items, Json.items, h.value (by omega)]
  split
  · rfl
  · next v rest hread =>
    split
    · rfl
    · next rest' hcomma =>
      have hlength := length_behind hread hcomma
      rw [h.items (by omega)]
    · rfl

theorem members_succ (hfuel : 2 * cs.length + 1 < fuel + 1) (room : Nat) (t : Table) :
    Json.members (fuel + 2) room t cs = Json.members (fuel + 1) room t cs := by
  rw [Json.members.eq_def, Json.members.eq_def (fuel + 1)]
  dsimp only
  split
  · next rest =>
    split
    · rfl
    · next key behind htext =>
      split
      · next rest' hcolon =>
        have hkey := (text?_suffix htext).length_le
        have hvalue := ((skipBlanks_suffix rest').trans (suffix_of_skipBlanks hcolon)).length_le
        rw [List.length_cons] at hfuel
        rw [h.value (by omega)]
        split
        · rfl
        · next v others hread =>
          split
          · rfl
          · next rest'' hcomma =>
            have hlength := length_behind hread hcomma
            rw [h.members (by omega)]
          · rfl
      · rfl
  · rfl

end FuelSuffices

theorem fuelSuffices (fuel : Nat) : FuelSuffices fuel := by
  induction fuel with
  | zero => exact ⟨fun h => absurd h (Nat.not_lt_zero _), fun h => absurd h (Nat.not_lt_zero _),
      fun h => absurd h (Nat.not_lt_zero _)⟩
  | succ fuel ih => exact ⟨ih.value_succ, ih.items_succ, ih.members_succ⟩

/-- No text is refused for want of fuel: more than a document gets changes nothing. -/
theorem value_of_more_fuel (room more : Nat) (cs : List Char) :
    value (2 * cs.length + 1 + more) room cs = value (2 * cs.length + 1) room cs := by
  induction more with
  | zero => rfl
  | succ more ih =>
    have hfuel : 2 * cs.length < 2 * cs.length + 1 + more := by omega
    calc
      value (2 * cs.length + 1 + (more + 1)) room cs
        = value (2 * cs.length + 1 + more) room cs := (fuelSuffices _).value hfuel room
      _ = value (2 * cs.length + 1) room cs := ih

/-! ### Documents -/

/-- The reasons for which a document is refused. -/
theorem read_eq_error {s : String} {e : ReadError} (h : read s = .error e) :
    e = .malformed ∨
    (∃ n, e = .numeral ⟨n⟩ ∧ Text.numeralLimit < n ∧ HasRun n s.toList) ∨
    ∃ at_, e = .tooDeep at_ ∧ depthLimit < openings s.toList := by
  have hvalue := ((accountsFor (2 * s.toList.length + 1)).value depthLimit
    (skipBlanks s.toList)).of_suffix (skipBlanks_suffix s.toList)
  unfold read at h
  dsimp only at h
  split at h
  · next e' herror =>
    obtain rfl := Except.error.inj h
    rw [herror] at hvalue
    rcases e' with _ | e' | at_
    · exact .inl rfl
    · exact .inr (.inl ⟨e'.digits, rfl, hvalue⟩)
    · exact .inr (.inr ⟨at_, rfl, hvalue⟩)
  · split_ifs at h
    exact .inl (Except.error.inj h).symm

/-- A text with neither is read, or malformed. -/
theorem read_of_modest {s : String} (hruns : ∀ n, HasRun n s.toList → n ≤ Text.numeralLimit)
    (hdepth : openings s.toList ≤ depthLimit) :
    read s = .error .malformed ∨ ∃ v, read s = .ok v := by
  cases h : read s with
  | ok v => exact .inr ⟨v, rfl⟩
  | error e =>
    rcases read_eq_error h with rfl | ⟨n, -, hlong, hrun⟩ | ⟨_, -, hdeep⟩
    · exact .inl rfl
    · exact absurd (hruns n hrun) (Nat.not_le.mpr hlong)
    · exact absurd hdepth (Nat.not_le.mpr hdeep)

/-- Digits alone, more than are read, are refused. -/
theorem read_of_long {digits : List Char} (hdigits : ∀ c ∈ digits, c.isDigit)
    (hzero : digits.head? ≠ some '0') (hlong : Text.numeralLimit < digits.length) :
    read (String.ofList digits) = .error (.numeral ⟨digits.length⟩) := by
  have hends : EndsNumber [] := by simp [EndsNumber]
  have hunsigned := unsigned_digits false (List.ne_nil_of_length_pos (Nat.zero_lt_of_lt hlong))
    hdigits (fun h => absurd h hzero) hends
  rw [List.append_nil, if_pos hlong] at hunsigned
  cases digits with
  | nil => exact absurd hlong (Nat.not_lt_zero _)
  | cons c digits =>
    have hdigit : c.isDigit := hdigits c List.mem_cons_self
    have hne : ∀ w : Char, w.isDigit = false → c ≠ w := fun w hw => (ne_of_isDigit hdigit hw).symm
    simp only [read, String.toList_ofList,
      skipBlanks_cons ⟨hne _ rfl, hne _ rfl, hne _ rfl, hne _ rfl⟩,
      value_eq_atom (hne _ rfl) (hne _ rfl) (hne _ rfl), atom_of_isDigit hdigit, hunsigned]

/-- More opening brackets than there is room for are refused, whatever stands behind them. -/
theorem value_of_deep {fuel room : Nat} (hfuel : 2 * room < fuel) (rest : List Char) :
    value fuel room (List.replicate (room + 1) '[' ++ rest) = .error (.tooDeep .array) := by
  induction room generalizing fuel with
  | zero =>
    obtain ⟨fuel, rfl⟩ := Nat.exists_eq_add_one_of_ne_zero (Nat.ne_zero_of_lt hfuel)
    rfl
  | succ room ih =>
    obtain ⟨fuel, rfl⟩ : ∃ k, fuel = k + 2 := ⟨fuel - 2, by omega⟩
    -- The next bracket is no closing one, and what is read there has two less of the fuel.
    have hinner := ih (show 2 * room < fuel by omega)
    rw [List.replicate_succ, List.cons_append] at hinner
    rw [List.replicate_succ, List.replicate_succ, List.cons_append, List.cons_append, value,
      if_neg (Nat.succ_ne_zero room), skipBlanks_cons (by decide)]
    change (items (fuel + 1) room _).map _ = _
    rw [items, hinner]
    rfl

/-- A text that begins with more brackets than may be nested is refused, closed or not. -/
theorem read_of_deep (rest : List Char) :
    read (String.ofList (List.replicate (depthLimit + 1) '[' ++ rest)) =
      .error (.tooDeep .array) := by
  have hfirst : skipBlanks (List.replicate (depthLimit + 1) '[' ++ rest) =
      List.replicate (depthLimit + 1) '[' ++ rest := by
    rw [List.replicate_succ, List.cons_append]
    exact skipBlanks_cons (by decide) _
  have hfuel : 2 * depthLimit < 2 * (List.replicate (depthLimit + 1) '[' ++ rest).length + 1 := by
    rw [List.length_append, List.length_replicate]
    omega
  have hvalue := value_of_deep hfuel rest
  simp only [read, String.toList_ofList, hfirst, hvalue]

end LinterSuite.Json
