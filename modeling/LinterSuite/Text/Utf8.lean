/-!
# UTF-8

Texts as bytes and back. Reading recognises, at every position, either a character or the longest
run of bytes that could have begun one; a strict reader refuses the second, a lenient one replaces
it by U+FFFD.

## Main definitions

* `Text.utf8`: the bytes of a text
* `Text.utf8Pieces`: the characters and faulty runs of a byte sequence
* `Text.ofUtf8?`, `Text.ofUtf8Lossy`: the strict and the lenient reading

## Main results

* `Text.utf8_append`: bytes of a concatenation
* `Text.ofUtf8Lossy_of_ofUtf8?`: the lenient reading extends the strict one
-/

namespace LinterSuite.Text

/-- The bytes of a text. -/
def utf8 (s : String) : List UInt8 := s.toList.flatMap String.utf8EncodeChar

/-- The number of bytes of a text. -/
def utf8Size (s : String) : Nat := (utf8 s).length

/-- What a first byte announces: its share of the code point, how many bytes follow, and the range
of the next one (which keeps out overlong forms and surrogates). -/
def utf8Lead? (b : UInt8) : Option (Nat × Nat × UInt8 × UInt8) :=
  let n := b.toNat
  if 0xC2 ≤ n ∧ n ≤ 0xDF then some (n - 0xC0, 1, 0x80, 0xBF)
  else if n = 0xE0 then some (0, 2, 0xA0, 0xBF)
  else if n = 0xED then some (0xD, 2, 0x80, 0x9F)
  else if 0xE1 ≤ n ∧ n ≤ 0xEF then some (n - 0xE0, 2, 0x80, 0xBF)
  else if n = 0xF0 then some (0, 3, 0x90, 0xBF)
  else if 0xF1 ≤ n ∧ n ≤ 0xF3 then some (n - 0xF0, 3, 0x80, 0xBF)
  else if n = 0xF4 then some (4, 3, 0x80, 0x8F)
  else none

/-- Reads `count` more bytes of a character; a byte out of range is left unread. -/
def utf8Follow (low high : UInt8) (acc : Nat) :
    (count : Nat) → List UInt8 → Option Char × List UInt8
  | 0, rest => (some (Char.ofNat acc), rest)
  | _ + 1, [] => (none, [])
  | count + 1, b :: rest =>
    if low ≤ b ∧ b ≤ high then utf8Follow 0x80 0xBF (64 * acc + b.toNat % 64) count rest
    else (none, b :: rest)

/-- The first character, or `none` for a faulty run, and the bytes behind it. -/
def utf8Next (b : UInt8) (rest : List UInt8) : Option Char × List UInt8 :=
  if b < 0x80 then (some (Char.ofNat b.toNat), rest)
  else match utf8Lead? b with
    | none => (none, rest)
    | some (acc, count, low, high) => utf8Follow low high acc count rest

theorem length_utf8Follow_le (low high : UInt8) (acc count : Nat) (bytes : List UInt8) :
    (utf8Follow low high acc count bytes).2.length ≤ bytes.length := by
  fun_induction utf8Follow low high acc count bytes with
  | case1 | case2 => simp
  | case3 low high acc count b rest _ ih => simp only [List.length_cons]; omega
  | case4 => simp

theorem length_utf8Next_le (b : UInt8) (rest : List UInt8) :
    (utf8Next b rest).2.length ≤ rest.length := by
  unfold utf8Next
  split
  · simp
  · split
    · simp
    · exact length_utf8Follow_le ..

/-- The characters of a byte sequence in order, `none` for each faulty run. -/
def utf8Pieces : List UInt8 → List (Option Char)
  | [] => []
  | b :: rest => (utf8Next b rest).1 :: utf8Pieces (utf8Next b rest).2
termination_by bytes => bytes.length
decreasing_by exact Nat.lt_succ_of_le (length_utf8Next_le b rest)

/-- The text whose bytes these are, if there is one. -/
def ofUtf8? (bytes : List UInt8) : Option String :=
  ((utf8Pieces bytes).mapM id).map String.ofList

/-- The text with U+FFFD for each faulty run. -/
def ofUtf8Lossy (bytes : List UInt8) : String :=
  String.ofList ((utf8Pieces bytes).map (·.getD '\uFFFD'))

theorem utf8_append (s t : String) : utf8 (s ++ t) = utf8 s ++ utf8 t := by
  simp [utf8]

theorem ofUtf8Lossy_of_ofUtf8? {bytes : List UInt8} {s : String} (h : ofUtf8? bytes = some s) :
    ofUtf8Lossy bytes = s := by
  obtain ⟨cs, hcs, rfl⟩ := Option.map_eq_some_iff.1 h
  rw [ofUtf8Lossy]
  congr 1
  clear h
  generalize utf8Pieces bytes = pieces at hcs
  induction pieces generalizing cs with
  | nil => simp_all
  | cons p rest ih =>
    rw [List.mapM_cons] at hcs
    cases p with
    | none => simp at hcs
    | some c =>
      simp only [id_eq, Option.bind_eq_bind, Option.bind_some, Option.bind_eq_some_iff] at hcs
      obtain ⟨ds, hds, heq⟩ := hcs
      cases heq
      simp [ih ds hds]

end LinterSuite.Text
