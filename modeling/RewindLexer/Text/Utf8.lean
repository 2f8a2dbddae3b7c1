import RewindLexer.Text.Decoder

/-!
# A decoder of UTF-8

`Utf8.decodeFirst` reads one character off a list of bytes, by the table of the bytes with which a
character may start. A sequence that does not encode a character is taken off as far as it could
have been the start of one, and at least one byte; `Utf8.decode` puts the replacement character in
its place. Together they are a decoder.
-/

namespace RewindLexer.Text.Utf8

/-- What a lead byte announces: its own bits, the interval of the byte that must follow, and how
many bytes follow in all. -/
structure Lead where
  bits : Nat
  lo : UInt8
  hi : UInt8
  more : Nat
  deriving DecidableEq

/-- Reads a lead byte. The interval of the second byte leaves out overlong forms, surrogates and
values above the last code point. -/
def lead? (b : UInt8) : Option Lead :=
  if b < 0x80 then some ⟨b.toNat, 0x80, 0xBF, 0⟩
  else if b < 0xC2 then none
  else if b < 0xE0 then some ⟨b.toNat - 0xC0, 0x80, 0xBF, 1⟩
  else if b = 0xE0 then some ⟨0, 0xA0, 0xBF, 2⟩
  else if b = 0xED then some ⟨0xD, 0x80, 0x9F, 2⟩
  else if b < 0xF0 then some ⟨b.toNat - 0xE0, 0x80, 0xBF, 2⟩
  else if b = 0xF0 then some ⟨0, 0x90, 0xBF, 3⟩
  else if b < 0xF4 then some ⟨b.toNat - 0xF0, 0x80, 0xBF, 3⟩
  else if b = 0xF4 then some ⟨4, 0x80, 0x8F, 3⟩
  else none

/-- Reads the bytes that a lead byte announces: the character, if they are all there, and the
number of bytes that fit. -/
def continuation : (bits : Nat) → (lo hi : UInt8) → (more : Nat) → List UInt8 → Option Char × Nat
  | bits, _, _, 0, _ => (some (Char.ofNat bits), 0)
  | _, _, _, _ + 1, [] => (none, 0)
  | bits, lo, hi, n + 1, b :: rest =>
    if lo ≤ b ∧ b ≤ hi then
      let (c, size) := continuation (bits * 64 + (b.toNat - 0x80)) 0x80 0xBF n rest
      (c, size + 1)
    else
      (none, 0)

/-- Reads the first character: the character, if the bytes start with one, and the number of bytes
to take off. -/
def decodeFirst : List UInt8 → Option Char × Nat
  | [] => (none, 0)
  | b :: rest =>
    match lead? b with
    | none => (none, 1)
    | some lead =>
      let (c, size) := continuation lead.bits lead.lo lead.hi lead.more rest
      (c, size + 1)

theorem decodeFirst_size_pos (b : UInt8) (rest : List UInt8) :
    0 < (decodeFirst (b :: rest)).2 := by
  simp only [decodeFirst]
  split <;> simp

theorem continuation_size_le (bits : Nat) (lo hi : UInt8) (more : Nat) (bytes : List UInt8) :
    (continuation bits lo hi more bytes).2 ≤ bytes.length := by
  fun_induction continuation bits lo hi more bytes with
  | case1 => exact Nat.zero_le _
  | case2 => exact Nat.zero_le _
  | case3 bits lo hi n b rest hb c size hc ih =>
    rw [hc] at ih
    exact Nat.succ_le_succ ih
  | case4 => exact Nat.zero_le _

theorem decodeFirst_size_le (bytes : List UInt8) : (decodeFirst bytes).2 ≤ bytes.length := by
  cases bytes with
  | nil => exact Nat.zero_le _
  | cons b rest =>
    simp only [decodeFirst]
    cases lead? b with
    | none => exact Nat.succ_le_succ (Nat.zero_le _)
    | some lead => exact Nat.succ_le_succ (continuation_size_le _ _ _ _ rest)

/-- The characters that bytes encode, with one replacement character for each longest start of a
character that is not completed, and for each other byte that starts none. -/
def decode : List UInt8 → List Char
  | [] => []
  | b :: rest =>
    let first := decodeFirst (b :: rest)
    first.1.getD replacement :: decode ((b :: rest).drop first.2)
termination_by bytes => bytes.length
decreasing_by
  have := decodeFirst_size_pos b rest
  simp only [List.length_drop, List.length_cons]
  omega

/-- The decoder by the table of first bytes. -/
def decoder : Decoder where
  first := decodeFirst
  all := decode
  size_pos {bytes} h :=
    match bytes, h with
    | b :: rest, _ => decodeFirst_size_pos b rest
  size_le _ := decodeFirst_size_le _

end RewindLexer.Text.Utf8
