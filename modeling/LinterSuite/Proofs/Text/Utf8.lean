import LinterSuite.Text.Utf8
import Mathlib.Data.List.Basic

/-!
# Texts are read back from their bytes

The reader recognises the bytes of every character, so a text is got back from its bytes, and two
texts never have the same ones. It takes nothing else for a character: bytes are read as a text only
if they are the bytes of that text.

## Main definitions

* `Text.IsAscii`: a text in which every character has one byte

## Main results

* `Text.utf8Next_utf8EncodeChar`: the bytes of a character are read as that character
* `Text.ofUtf8?_utf8`: a text is read back from its bytes
* `Text.utf8_injective`: texts are told apart by their bytes
* `Text.zero_mem_utf8_iff`: the only character with a null byte is the null character
* `Text.ofUtf8?_eq_some_iff`: the bytes that are read as a text are its own
* `Text.exists_of_prefix_utf8`: one byte for each character can only be cut between characters
-/

namespace LinterSuite.Text

/-! ### One character -/

/-- A byte in range is taken into the character that is being read. -/
theorem utf8Follow_ofNat {low high : UInt8} {n : Nat} (hlow : low.toNat ≤ n)
    (hhigh : n ≤ high.toNat) (acc count : Nat) (rest : List UInt8) :
    utf8Follow low high acc (count + 1) (UInt8.ofNat n :: rest) =
      utf8Follow 0x80 0xBF (64 * acc + n % 64) count rest := by
  have hbyte : (UInt8.ofNat n).toNat = n :=
    UInt8.toNat_ofNat_of_lt' (Nat.lt_of_le_of_lt hhigh high.toNat_lt)
  have hrange : low ≤ UInt8.ofNat n ∧ UInt8.ofNat n ≤ high := by
    rw [UInt8.le_iff_toNat_le, UInt8.le_iff_toNat_le, hbyte]
    exact ⟨hlow, hhigh⟩
  rw [utf8Follow, if_pos hrange, hbyte]

/-- A byte that is no character of its own is read as what it announces. -/
theorem utf8Next_ofNat {n : Nat} (hlow : 0x80 ≤ n) (hhigh : n < 0x100) {acc count : Nat}
    {low high : UInt8} (hlead : utf8Lead? (UInt8.ofNat n) = some (acc, count, low, high))
    (rest : List UInt8) :
    utf8Next (UInt8.ofNat n) rest = utf8Follow low high acc count rest := by
  have hbyte : (UInt8.ofNat n).toNat = n := UInt8.toNat_ofNat_of_lt' hhigh
  have hlarge : ¬ UInt8.ofNat n < 0x80 := by
    rw [UInt8.lt_iff_toNat_lt, hbyte]
    exact Nat.not_lt.mpr hlow
  rw [utf8Next, if_neg hlarge, hlead]

/-- A first byte of two announces one more. -/
theorem utf8Lead?_two {n : Nat} (hlow : 0xC2 ≤ n) (hhigh : n ≤ 0xDF) :
    utf8Lead? (UInt8.ofNat n) = some (n - 0xC0, 1, 0x80, 0xBF) := by
  have hbyte : (UInt8.ofNat n).toNat = n := UInt8.toNat_ofNat_of_lt' (by change n < 256; omega)
  simp only [utf8Lead?, hbyte]
  rw [if_pos ⟨hlow, hhigh⟩]

/-- A first byte of three announces two more; the next is neither that of an overlong form nor that
of a surrogate. -/
theorem utf8Lead?_three {n m : Nat} (hlow : 0xE0 ≤ n) (hhigh : n ≤ 0xEF)
    (hnext : 0x80 ≤ m ∧ m ≤ 0xBF) (hoverlong : n = 0xE0 → 0xA0 ≤ m)
    (hsurrogate : n = 0xED → m ≤ 0x9F) :
    ∃ low high : UInt8, utf8Lead? (UInt8.ofNat n) = some (n - 0xE0, 2, low, high) ∧
      low.toNat ≤ m ∧ m ≤ high.toNat := by
  have hbyte : (UInt8.ofNat n).toNat = n := UInt8.toNat_ofNat_of_lt' (by change n < 256; omega)
  simp only [utf8Lead?, hbyte]
  rw [if_neg (by omega)]
  by_cases hE0 : n = 0xE0
  · refine ⟨0xA0, 0xBF, ?_, hoverlong hE0, hnext.2⟩
    simp [hE0]
  · rw [if_neg hE0]
    by_cases hED : n = 0xED
    · refine ⟨0x80, 0x9F, ?_, hnext.1, hsurrogate hED⟩
      simp [hED]
    · refine ⟨0x80, 0xBF, ?_, hnext.1, hnext.2⟩
      rw [if_neg hED, if_pos ⟨by omega, hhigh⟩]

/-- A first byte of four announces three more; the next is neither that of an overlong form nor that
of a number beyond the last character. -/
theorem utf8Lead?_four {n m : Nat} (hlow : 0xF0 ≤ n) (hhigh : n ≤ 0xF4)
    (hnext : 0x80 ≤ m ∧ m ≤ 0xBF) (hoverlong : n = 0xF0 → 0x90 ≤ m)
    (hlast : n = 0xF4 → m ≤ 0x8F) :
    ∃ low high : UInt8, utf8Lead? (UInt8.ofNat n) = some (n - 0xF0, 3, low, high) ∧
      low.toNat ≤ m ∧ m ≤ high.toNat := by
  have hbyte : (UInt8.ofNat n).toNat = n := UInt8.toNat_ofNat_of_lt' (by change n < 256; omega)
  simp only [utf8Lead?, hbyte]
  rw [if_neg (by omega), if_neg (by omega), if_neg (by omega), if_neg (by omega)]
  by_cases hF0 : n = 0xF0
  · refine ⟨0x90, 0xBF, ?_, hoverlong hF0, hnext.2⟩
    simp [hF0]
  · rw [if_neg hF0]
    by_cases hF4 : n = 0xF4
    · refine ⟨0x80, 0x8F, ?_, hnext.1, hlast hF4⟩
      simp [hF4]
    · refine ⟨0x80, 0xBF, ?_, hnext.1, hnext.2⟩
      rw [if_pos ⟨by omega, by omega⟩]

/-- The bytes of a character are read as that character. -/
theorem utf8Next_utf8EncodeChar (c : Char) (rest : List UInt8) :
    ∃ b bytes, String.utf8EncodeChar c = b :: bytes ∧
      utf8Next b (bytes ++ rest) = (some c, rest) := by
  have hvalid : c.val.toNat.isValidChar := c.valid
  have hchar : Char.ofNat c.val.toNat = c := Char.ofNat_toNat c
  unfold Nat.isValidChar at hvalid
  -- Over the length of the bytes, which follows the size of the code point.
  unfold String.utf8EncodeChar
  generalize c.val.toNat = v at *
  simp only
  split_ifs with h1 h2 h3
  · refine ⟨_, [], rfl, ?_⟩
    have hbyte : (UInt8.ofNat v).toNat = v := UInt8.toNat_ofNat_of_lt' (by change v < 256; omega)
    have hsmall : UInt8.ofNat v < 0x80 := by
      rw [UInt8.lt_iff_toNat_lt, hbyte]
      exact Nat.lt_succ_of_le h1
    rw [utf8Next, if_pos hsmall, hbyte, hchar]
    rfl
  · refine ⟨_, _, rfl, ?_⟩
    rw [utf8Next_ofNat (by omega) (by omega) (utf8Lead?_two (by omega) (by omega)),
      List.singleton_append, utf8Follow_ofNat (by change 128 ≤ _; omega) (by change _ ≤ 191; omega),
      utf8Follow, ← hchar]
    congr 3
    omega
  · refine ⟨_, _, rfl, ?_⟩
    -- The bounds of the second byte depend on the first: no surrogate, no shorter form.
    obtain ⟨low, high, hlead, hlow, hhigh⟩ :=
      utf8Lead?_three (n := v / 4096 % 16 + 0xE0) (m := v / 64 % 64 + 0x80)
        (by omega) (by omega) (by omega) (by omega) (by omega)
    rw [utf8Next_ofNat (by omega) (by omega) hlead, List.cons_append, List.singleton_append,
      utf8Follow_ofNat hlow hhigh, utf8Follow_ofNat (by change 128 ≤ _; omega)
        (by change _ ≤ 191; omega), utf8Follow, ← hchar]
    congr 3
    omega
  · refine ⟨_, _, rfl, ?_⟩
    obtain ⟨low, high, hlead, hlow, hhigh⟩ :=
      utf8Lead?_four (n := v / 262144 % 8 + 0xF0) (m := v / 4096 % 64 + 0x80)
        (by omega) (by omega) (by omega) (by omega) (by omega)
    rw [utf8Next_ofNat (by omega) (by omega) hlead, List.cons_append, List.cons_append,
      List.singleton_append, utf8Follow_ofNat hlow hhigh,
      utf8Follow_ofNat (by change 128 ≤ _; omega) (by change _ ≤ 191; omega),
      utf8Follow_ofNat (by change 128 ≤ _; omega) (by change _ ≤ 191; omega), utf8Follow, ← hchar]
    congr 3
    omega

/-! ### Texts -/

theorem utf8Pieces_utf8EncodeChar (c : Char) (rest : List UInt8) :
    utf8Pieces (String.utf8EncodeChar c ++ rest) = some c :: utf8Pieces rest := by
  obtain ⟨b, bytes, hencode, hnext⟩ := utf8Next_utf8EncodeChar c rest
  rw [hencode, List.cons_append, utf8Pieces, hnext]

/-- The bytes of a text are read as its characters, none of them faulty. -/
theorem utf8Pieces_utf8 (s : String) : utf8Pieces (utf8 s) = s.toList.map some := by
  unfold utf8
  induction s.toList with
  | nil => simp [utf8Pieces]
  | cons c cs ih => rw [List.flatMap_cons, utf8Pieces_utf8EncodeChar, ih, List.map_cons]

/-- A text is read back from its bytes. -/
@[simp] theorem ofUtf8?_utf8 (s : String) : ofUtf8? (utf8 s) = some s := by
  have hmap : (s.toList.map some).mapM id = some s.toList := by
    induction s.toList with
    | nil => rfl
    | cons c cs ih => simp [ih]
  rw [ofUtf8?, utf8Pieces_utf8, hmap, Option.map_some, String.ofList_toList]

/-- Texts are told apart by their bytes. -/
theorem utf8_injective : Function.Injective utf8 := by
  intro s t h
  have hread : some s = some t := by rw [← ofUtf8?_utf8 s, ← ofUtf8?_utf8 t, h]
  exact Option.some.inj hread

/-- The only character with a null byte is the null character. -/
theorem zero_mem_utf8_iff {s : String} : 0 ∈ utf8 s ↔ '\x00' ∈ s.toList := by
  have hchar : ∀ c : Char, 0 ∈ String.utf8EncodeChar c ↔ c = '\x00' := by
    intro c
    have hvalid : c.val.toNat.isValidChar := c.valid
    have hzero : c = '\x00' ↔ c.val.toNat = 0 := by
      rw [← Char.toNat_inj]
      exact Iff.rfl
    unfold Nat.isValidChar at hvalid
    rw [hzero]
    unfold String.utf8EncodeChar
    generalize c.val.toNat = v at *
    simp only
    -- All bytes of a longer form are at least `0x80`.
    split_ifs <;> simp [← UInt8.toNat_inj] <;> omega
  simp [utf8, hchar]

/-! ### Bytes that are read -/

theorem utf8Follow_zero_eq_some {low high : UInt8} {acc : Nat} {bytes rest : List UInt8} {c : Char}
    (h : utf8Follow low high acc 0 bytes = (some c, rest)) : c = Char.ofNat acc ∧ bytes = rest := by
  rw [utf8Follow, Prod.mk.injEq, Option.some.injEq] at h
  exact ⟨h.1.symm, h.2⟩

/-- A byte that was taken into a character is in range. -/
theorem utf8Follow_succ_eq_some {low high : UInt8} {acc count : Nat} {bytes rest : List UInt8}
    {c : Char} (h : utf8Follow low high acc (count + 1) bytes = (some c, rest)) :
    ∃ b following, bytes = b :: following ∧ low.toNat ≤ b.toNat ∧ b.toNat ≤ high.toNat ∧
      utf8Follow 0x80 0xBF (64 * acc + b.toNat % 64) count following = (some c, rest) := by
  cases bytes with
  | nil => simp [utf8Follow] at h
  | cons b following =>
    rw [utf8Follow] at h
    split at h
    · next hrange => exact ⟨b, following, rfl, hrange.1, hrange.2, h⟩
    · simp at h

/-- What a first byte announces is one, two or three more; the ranges keep out shorter forms,
surrogates and numbers beyond the last character. -/
theorem utf8Lead?_eq_some {b : UInt8} {acc count : Nat} {low high : UInt8}
    (h : utf8Lead? b = some (acc, count, low, high)) :
    (0xC2 ≤ b.toNat ∧ b.toNat ≤ 0xDF ∧ acc = b.toNat - 0xC0 ∧ count = 1 ∧ low = 0x80 ∧
      high = 0xBF) ∨
    (0xE0 ≤ b.toNat ∧ b.toNat ≤ 0xEF ∧ acc = b.toNat - 0xE0 ∧ count = 2 ∧ 0x80 ≤ low.toNat ∧
      high.toNat ≤ 0xBF ∧ (b.toNat = 0xE0 → 0xA0 ≤ low.toNat) ∧
      (b.toNat = 0xED → high.toNat ≤ 0x9F)) ∨
    (0xF0 ≤ b.toNat ∧ b.toNat ≤ 0xF4 ∧ acc = b.toNat - 0xF0 ∧ count = 3 ∧ 0x80 ≤ low.toNat ∧
      high.toNat ≤ 0xBF ∧ (b.toNat = 0xF0 → 0x90 ≤ low.toNat) ∧
      (b.toNat = 0xF4 → high.toNat ≤ 0x8F)) := by
  unfold utf8Lead? at h
  dsimp only at h
  split_ifs at h <;>
    (simp only [Option.some.injEq, Prod.mk.injEq] at h; obtain ⟨rfl, rfl, rfl, rfl⟩ := h)
  · exact .inl ⟨by omega, by omega, rfl, rfl, rfl, rfl⟩
  · exact .inr (.inl ⟨by omega, by omega, by omega, rfl, by decide, by decide, fun _ => by decide,
      fun h => by omega⟩)
  · exact .inr (.inl ⟨by omega, by omega, by omega, rfl, by decide, by decide, fun h => by omega,
      fun _ => by decide⟩)
  · exact .inr (.inl ⟨by omega, by omega, rfl, rfl, by decide, by decide, fun h => by omega,
      fun h => by omega⟩)
  · exact .inr (.inr ⟨by omega, by omega, by omega, rfl, by decide, by decide, fun _ => by decide,
      fun h => by omega⟩)
  · exact .inr (.inr ⟨by omega, by omega, rfl, rfl, by decide, by decide, fun h => by omega,
      fun h => by omega⟩)
  · exact .inr (.inr ⟨by omega, by omega, by omega, rfl, by decide, by decide, fun h => by omega,
      fun _ => by decide⟩)

/-- The bytes of the character of a number. -/
theorem utf8EncodeChar_ofNat {n : Nat} (h : n.isValidChar) :
    String.utf8EncodeChar (Char.ofNat n) =
      if n ≤ 0x7F then [UInt8.ofNat n]
      else if n ≤ 0x7FF then [UInt8.ofNat (n / 64 % 32 + 0xC0), UInt8.ofNat (n % 64 + 0x80)]
      else if n ≤ 0xFFFF then
        [UInt8.ofNat (n / 4096 % 16 + 0xE0), UInt8.ofNat (n / 64 % 64 + 0x80),
          UInt8.ofNat (n % 64 + 0x80)]
      else
        [UInt8.ofNat (n / 262144 % 8 + 0xF0), UInt8.ofNat (n / 4096 % 64 + 0x80),
          UInt8.ofNat (n / 64 % 64 + 0x80), UInt8.ofNat (n % 64 + 0x80)] := by
  have hvalue : (Char.ofNat n).val.toNat = n := by
    rw [Char.ofNat, dif_pos h]
    rfl
  rw [String.utf8EncodeChar, hvalue]

/-- What is read as a character are the bytes of that character. -/
theorem eq_utf8EncodeChar_of_utf8Next {b : UInt8} {bytes rest : List UInt8} {c : Char}
    (h : utf8Next b bytes = (some c, rest)) : b :: bytes = String.utf8EncodeChar c ++ rest := by
  have hbyte : ∀ (b : UInt8) (n : Nat), n = b.toNat → UInt8.ofNat n = b := by
    rintro b _ rfl
    exact UInt8.ofNat_toNat
  unfold utf8Next at h
  split at h
  · next hsmall =>
    rw [UInt8.lt_iff_toNat_lt] at hsmall
    change b.toNat < 128 at hsmall
    obtain ⟨hc, rfl⟩ := Prod.mk.inj h
    obtain rfl := Option.some.inj hc
    rw [utf8EncodeChar_ofNat (.inl (by omega)), if_pos (by omega), hbyte b _ rfl]
    rfl
  · split at h
    · simp at h
    · next acc count low high hlead =>
      rcases utf8Lead?_eq_some hlead with ⟨hmin, hmax, hacc, rfl, rfl, rfl⟩ |
          ⟨hmin, hmax, hacc, rfl, hlow, hhigh, hoverlong, hsurrogate⟩ |
          ⟨hmin, hmax, hacc, rfl, hlow, hhigh, hoverlong, hlast⟩
      · obtain ⟨b₁, _, rfl, hmin₁, hmax₁, h⟩ := utf8Follow_succ_eq_some h
        obtain ⟨rfl, rfl⟩ := utf8Follow_zero_eq_some h
        change 0x80 ≤ b₁.toNat at hmin₁
        change b₁.toNat ≤ 0xBF at hmax₁
        rw [utf8EncodeChar_ofNat (.inl (by omega)), if_neg (by omega), if_pos (by omega),
          hbyte b _ (by omega), hbyte b₁ _ (by omega)]
        rfl
      · obtain ⟨b₁, _, rfl, hmin₁, hmax₁, h⟩ := utf8Follow_succ_eq_some h
        obtain ⟨b₂, _, rfl, hmin₂, hmax₂, h⟩ := utf8Follow_succ_eq_some h
        obtain ⟨rfl, rfl⟩ := utf8Follow_zero_eq_some h
        change 0x80 ≤ b₂.toNat at hmin₂
        change b₂.toNat ≤ 0xBF at hmax₂
        rw [utf8EncodeChar_ofNat (by unfold Nat.isValidChar; omega), if_neg (by omega),
          if_neg (by omega), if_pos (by omega), hbyte b _ (by omega), hbyte b₁ _ (by omega),
          hbyte b₂ _ (by omega)]
        rfl
      · obtain ⟨b₁, _, rfl, hmin₁, hmax₁, h⟩ := utf8Follow_succ_eq_some h
        obtain ⟨b₂, _, rfl, hmin₂, hmax₂, h⟩ := utf8Follow_succ_eq_some h
        obtain ⟨b₃, _, rfl, hmin₃, hmax₃, h⟩ := utf8Follow_succ_eq_some h
        obtain ⟨rfl, rfl⟩ := utf8Follow_zero_eq_some h
        change 0x80 ≤ b₂.toNat at hmin₂
        change b₂.toNat ≤ 0xBF at hmax₂
        change 0x80 ≤ b₃.toNat at hmin₃
        change b₃.toNat ≤ 0xBF at hmax₃
        rw [utf8EncodeChar_ofNat (by unfold Nat.isValidChar; omega), if_neg (by omega),
          if_neg (by omega), if_neg (by omega), hbyte b _ (by omega), hbyte b₁ _ (by omega),
          hbyte b₂ _ (by omega), hbyte b₃ _ (by omega)]
        rfl

/-- The bytes of a text are exactly those that are read as it. -/
theorem ofUtf8?_eq_some_iff {bytes : List UInt8} {s : String} :
    ofUtf8? bytes = some s ↔ utf8 s = bytes := by
  constructor
  · intro h
    obtain ⟨cs, hcs, rfl⟩ := Option.map_eq_some_iff.mp h
    clear h
    -- By induction on the bytes: each character that is read takes its own bytes off the front.
    induction bytes using utf8Pieces.induct generalizing cs with
    | case1 =>
      rw [utf8Pieces] at hcs
      obtain rfl : cs = [] := by simpa using hcs.symm
      rfl
    | case2 b bytes ih =>
      rw [utf8Pieces] at hcs
      rcases hnext : utf8Next b bytes with ⟨_ | c, rest⟩
      · simp [hnext] at hcs
      · rw [hnext, List.mapM_cons] at hcs
        obtain ⟨cs', hcs', rfl⟩ : ∃ cs', (utf8Pieces rest).mapM id = some cs' ∧ c :: cs' = cs := by
          simpa [Option.bind_eq_some_iff] using hcs
        have hrest := ih cs' (by rwa [hnext])
        rw [eq_utf8EncodeChar_of_utf8Next hnext]
        simpa [utf8, hnext] using hrest
  · rintro rfl
    exact ofUtf8?_utf8 s

/-! ### Texts of one byte for each character -/

/-- A text in which every character has one byte. -/
def IsAscii (cs : List Char) : Prop := ∀ c ∈ cs, c.toNat < 0x80

instance (cs : List Char) : Decidable (IsAscii cs) :=
  List.decidableBAll (fun c : Char => c.toNat < 0x80) cs

theorem isAscii_cons {c : Char} {cs : List Char} :
    IsAscii (c :: cs) ↔ c.toNat < 0x80 ∧ IsAscii cs :=
  List.forall_mem_cons

theorem isAscii_append {xs ys : List Char} : IsAscii (xs ++ ys) ↔ IsAscii xs ∧ IsAscii ys :=
  List.forall_mem_append

theorem utf8EncodeChar_of_lt {c : Char} (h : c.toNat < 0x80) :
    String.utf8EncodeChar c = [UInt8.ofNat c.toNat] := by
  have hsmall : c.val.toNat ≤ 0x7F := Nat.le_of_lt_succ h
  rw [String.utf8EncodeChar, if_pos hsmall]
  rfl

/-- Bytes with one character each can only be cut between characters. -/
theorem exists_of_prefix_utf8 {s : String} (h : IsAscii s.toList) {bytes : List UInt8}
    (hbegins : bytes <+: utf8 s) : ∃ s' : String, s'.toList <+: s.toList ∧ utf8 s' = bytes := by
  have hbytes : ∀ cs : List Char, IsAscii cs →
      cs.flatMap String.utf8EncodeChar = cs.map fun c => UInt8.ofNat c.toNat := by
    intro cs hcs
    rw [List.map_eq_flatMap]
    exact List.flatMap_congr fun c hc => utf8EncodeChar_of_lt (hcs c hc)
  have htake := List.prefix_iff_eq_take.mp hbegins
  refine ⟨String.ofList (s.toList.take bytes.length), ?_, ?_⟩
  · rw [String.toList_ofList]
    exact List.take_prefix _ _
  · have hshort : IsAscii (s.toList.take bytes.length) := fun c hc => h c (List.mem_of_mem_take hc)
    calc
      utf8 (String.ofList (s.toList.take bytes.length))
        = (s.toList.take bytes.length).map fun c => UInt8.ofNat c.toNat := by
          rw [utf8, String.toList_ofList, hbytes _ hshort]
      _ = (utf8 s).take bytes.length := by rw [utf8, hbytes _ h, List.map_take]
      _ = bytes := htake.symm

end LinterSuite.Text
