import Mathlib.Tactic.IntervalCases
import RewindLexer.Proofs.Text.Decoder
import RewindLexer.Text.Utf8

/-!
# The decoder by the table of first bytes

The table leaves out just the bytes that no encoding has, so that what is taken off the front of
bytes is an encoded character, or as many bytes as could be the start of one. Main statements: the
decoder takes off what the bytes start with, and gives the characters that they stand for.
-/

namespace RewindLexer.Text.Utf8

theorem continuation_append {bits : Nat} {lo hi : UInt8} {more : Nat} {bytes : List UInt8}
    (h : Decided bytes (continuation bits lo hi more bytes)) (later : List UInt8) :
    continuation bits lo hi more (bytes ++ later) = continuation bits lo hi more bytes := by
  fun_induction continuation bits lo hi more bytes with
  | case1 => rw [continuation]
  | case2 =>
    rcases h with h | h
    · cases h
    · cases h
  | case3 bits lo hi n b rest hb c size hc ih =>
    have hd : Decided rest (c, size) := by
      rcases h with h | h
      · exact .inl h
      · exact .inr (Nat.lt_of_succ_lt_succ h)
    rw [hc] at ih
    rw [List.cons_append, continuation, if_pos hb, ih hd]
  | case4 bits lo hi n b rest hb => rw [List.cons_append, continuation, if_neg hb]

theorem decodeFirst_append {bytes : List UInt8} (h : Decided bytes (decodeFirst bytes))
    (later : List UInt8) : decodeFirst (bytes ++ later) = decodeFirst bytes := by
  cases bytes with
  | nil =>
    rcases h with h | h
    · cases h
    · cases h
  | cons b rest =>
    rw [List.cons_append, decodeFirst, decodeFirst]
    simp only [decodeFirst] at h
    cases hb : lead? b with
    | none => rfl
    | some lead =>
      rw [hb] at h
      have hd : Decided rest (continuation lead.bits lead.lo lead.hi lead.more rest) := by
        rcases h with h | h
        · exact .inl h
        · exact .inr (Nat.lt_of_succ_lt_succ h)
      simp only [continuation_append hd]

/-! ## Encoded characters -/

theorem toNat_byte {n : Nat} (h : n < 256) : (UInt8.ofNat n).toNat = n := by
  rw [UInt8.toNat_ofNat']
  exact Nat.mod_eq_of_lt h

theorem lead?_one {x : Nat} (h : x < 128) :
    lead? (UInt8.ofNat x) = some ⟨x, 0x80, 0xBF, 0⟩ := by
  have hx := toNat_byte (n := x) (by omega)
  have hlt : UInt8.ofNat x < 0x80 := by
    rw [UInt8.lt_iff_toNat_lt, hx]
    exact h
  rw [lead?, if_pos hlt, hx]

theorem lead?_two {x : Nat} (h : 2 ≤ x) (hx : x < 32) :
    lead? (UInt8.ofNat (x + 192)) = some ⟨x, 0x80, 0xBF, 1⟩ := by
  interval_cases x <;> rfl

theorem lead?_three {x : Nat} (hx : x < 16) :
    lead? (UInt8.ofNat (x + 224)) =
      some ⟨x, if x = 0 then 0xA0 else 0x80, if x = 13 then 0x9F else 0xBF, 2⟩ := by
  interval_cases x <;> rfl

theorem lead?_four {x : Nat} (hx : x < 5) :
    lead? (UInt8.ofNat (x + 240)) =
      some ⟨x, if x = 0 then 0x90 else 0x80, if x = 4 then 0x8F else 0xBF, 3⟩ := by
  interval_cases x <;> rfl

theorem continuation_zero (bits : Nat) (lo hi : UInt8) (rest : List UInt8) :
    continuation bits lo hi 0 rest = (some (Char.ofNat bits), 0) := by
  rw [continuation]

theorem continuation_succ {lo hi : UInt8} {x : Nat} (hx : x < 64) (hlo : lo.toNat ≤ x + 128)
    (hhi : x + 128 ≤ hi.toNat) (bits more : Nat) (rest : List UInt8) :
    continuation bits lo hi (more + 1) (UInt8.ofNat (x + 128) :: rest) =
      ((continuation (bits * 64 + x) 0x80 0xBF more rest).1,
        (continuation (bits * 64 + x) 0x80 0xBF more rest).2 + 1) := by
  have hb := toNat_byte (n := x + 128) (by omega)
  have hin : lo ≤ UInt8.ofNat (x + 128) ∧ UInt8.ofNat (x + 128) ≤ hi := by
    rw [UInt8.le_iff_toNat_le, UInt8.le_iff_toNat_le, hb]
    exact ⟨hlo, hhi⟩
  rw [continuation, if_pos hin, hb, Nat.add_sub_cancel]

/-- Only the byte behind the lead byte has an interval of its own. -/
theorem continuation_later {x : Nat} (hx : x < 64) (bits more : Nat) (rest : List UInt8) :
    continuation bits 0x80 0xBF (more + 1) (UInt8.ofNat (x + 128) :: rest) =
      ((continuation (bits * 64 + x) 0x80 0xBF more rest).1,
        (continuation (bits * 64 + x) 0x80 0xBF more rest).2 + 1) := by
  refine continuation_succ hx ?_ ?_ bits more rest
  · exact Nat.le_add_left 128 x
  · exact Nat.add_le_add_right (Nat.le_of_lt_succ hx) 128

theorem decodeFirst_one {x : Nat} (hx : x < 128) (rest : List UInt8) :
    decodeFirst (UInt8.ofNat x :: rest) = (some (Char.ofNat x), 1) := by
  rw [decodeFirst, lead?_one hx]
  dsimp only
  rw [continuation_zero]

theorem decodeFirst_two {x y : Nat} (h : 2 ≤ x) (hx : x < 32) (hy : y < 64) (rest : List UInt8) :
    decodeFirst (UInt8.ofNat (x + 192) :: UInt8.ofNat (y + 128) :: rest) =
      (some (Char.ofNat (x * 64 + y)), 2) := by
  rw [decodeFirst, lead?_two h hx]
  dsimp only
  rw [continuation_later hy, continuation_zero]

/-- The second byte leaves out what fits in two bytes, and surrogates. -/
theorem decodeFirst_three {x y z : Nat} (hx : x < 16) (hy : y < 64) (hz : z < 64)
    (hlong : x = 0 → 32 ≤ y) (hsurrogate : x = 13 → y < 32) (rest : List UInt8) :
    decodeFirst
        (UInt8.ofNat (x + 224) :: UInt8.ofNat (y + 128) :: UInt8.ofNat (z + 128) :: rest) =
      (some (Char.ofNat ((x * 64 + y) * 64 + z)), 3) := by
  have hlo : (if x = 0 then 0xA0 else 0x80 : UInt8).toNat ≤ y + 128 := by
    split
    · exact Nat.add_le_add_right (hlong ‹_›) 128
    · exact Nat.le_add_left 128 y
  have hhi : y + 128 ≤ (if x = 13 then 0x9F else 0xBF : UInt8).toNat := by
    split
    · exact Nat.add_le_add_right (Nat.le_of_lt_succ (hsurrogate ‹_›)) 128
    · exact Nat.add_le_add_right (Nat.le_of_lt_succ hy) 128
  rw [decodeFirst, lead?_three hx]
  dsimp only
  rw [continuation_succ hy hlo hhi, continuation_later hz, continuation_zero]

/-- The second byte leaves out what fits in three bytes, and what lies above all characters. -/
theorem decodeFirst_four {x y z w : Nat} (hx : x < 5) (hy : y < 64) (hz : z < 64) (hw : w < 64)
    (hlong : x = 0 → 16 ≤ y) (habove : x = 4 → y < 16) (rest : List UInt8) :
    decodeFirst
        (UInt8.ofNat (x + 240) :: UInt8.ofNat (y + 128) :: UInt8.ofNat (z + 128) ::
          UInt8.ofNat (w + 128) :: rest) =
      (some (Char.ofNat (((x * 64 + y) * 64 + z) * 64 + w)), 4) := by
  have hlo : (if x = 0 then 0x90 else 0x80 : UInt8).toNat ≤ y + 128 := by
    split
    · exact Nat.add_le_add_right (hlong ‹_›) 128
    · exact Nat.le_add_left 128 y
  have hhi : y + 128 ≤ (if x = 4 then 0x8F else 0xBF : UInt8).toNat := by
    split
    · exact Nat.add_le_add_right (Nat.le_of_lt_succ (habove ‹_›)) 128
    · exact Nat.add_le_add_right (Nat.le_of_lt_succ hy) 128
  rw [decodeFirst, lead?_four hx]
  dsimp only
  rw [continuation_succ hy hlo hhi, continuation_later hz, continuation_later hw,
    continuation_zero]

/-- The bytes of a character decode to it, whatever comes behind. -/
theorem decodeFirst_encode (c : Char) (rest : List UInt8) :
    decodeFirst (String.utf8EncodeChar c ++ rest) = (some c, (String.utf8EncodeChar c).length) := by
  have hvalid : c.val.toNat < 0xD800 ∨ 0xDFFF < c.val.toNat ∧ c.val.toNat < 0x110000 := c.valid
  have hc : ∀ n, n = c.val.toNat → Char.ofNat n = c := by
    intro n hn
    rw [hn]
    exact Char.ofNat_toNat c
  rw [String.utf8EncodeChar]
  generalize c.val.toNat = v at hvalid hc ⊢
  split
  · rw [← hc v rfl]
    exact decodeFirst_one (by omega) rest
  split
  · have hv : v / 64 % 32 * 64 + v % 64 = v := by omega
    rw [← hc _ hv]
    exact decodeFirst_two (by omega) (by omega) (by omega) rest
  split
  · have hv : (v / 4096 % 16 * 64 + v / 64 % 64) * 64 + v % 64 = v := by omega
    rw [← hc _ hv]
    exact decodeFirst_three (by omega) (by omega) (by omega) (by omega) (by omega) rest
  · have hv : ((v / 262144 % 8 * 64 + v / 4096 % 64) * 64 + v / 64 % 64) * 64 + v % 64 = v := by
      omega
    rw [← hc _ hv]
    exact decodeFirst_four (by omega) (by omega) (by omega) (by omega) (by omega) (by omega) rest

theorem decodeFirst_of_encode {c : Char} {bytes : List UInt8}
    (h : String.utf8EncodeChar c <+: bytes) :
    decodeFirst bytes = (some c, (String.utf8EncodeChar c).length) := by
  obtain ⟨rest, rfl⟩ := h
  exact decodeFirst_encode c rest

/-! ## Characters that are found -/

theorem encode_ofNat {v : Nat} (h : v.isValidChar) :
    String.utf8EncodeChar (Char.ofNat v) =
      if v ≤ 127 then [UInt8.ofNat v]
      else if v ≤ 2047 then [UInt8.ofNat (v / 64 % 32 + 192), UInt8.ofNat (v % 64 + 128)]
      else if v ≤ 65535 then
        [UInt8.ofNat (v / 4096 % 16 + 224), UInt8.ofNat (v / 64 % 64 + 128),
          UInt8.ofNat (v % 64 + 128)]
      else
        [UInt8.ofNat (v / 262144 % 8 + 240), UInt8.ofNat (v / 4096 % 64 + 128),
          UInt8.ofNat (v / 64 % 64 + 128), UInt8.ofNat (v % 64 + 128)] := by
  have hv : (Char.ofNat v).val.toNat = v := by
    rw [Char.ofNat, dif_pos h]
    rfl
  rw [String.utf8EncodeChar, hv]

theorem encode_one {x : Nat} (hx : x < 128) :
    String.utf8EncodeChar (Char.ofNat x) = [UInt8.ofNat x] := by
  rw [encode_ofNat (.inl (by omega)), if_pos (by omega)]

theorem encode_two {x y : Nat} (h : 2 ≤ x) (hx : x < 32) (hy : y < 64) :
    String.utf8EncodeChar (Char.ofNat (x * 64 + y)) =
      [UInt8.ofNat (x + 192), UInt8.ofNat (y + 128)] := by
  have h₁ : (x * 64 + y) / 64 % 32 = x := by omega
  have h₂ : (x * 64 + y) % 64 = y := by omega
  rw [encode_ofNat (.inl (by omega)), if_neg (by omega), if_pos (by omega), h₁, h₂]

theorem encode_three {x y z : Nat} (hx : x < 16) (hy : y < 64) (hz : z < 64)
    (hlong : x = 0 → 32 ≤ y) (hsurrogate : x = 13 → y < 32) :
    String.utf8EncodeChar (Char.ofNat ((x * 64 + y) * 64 + z)) =
      [UInt8.ofNat (x + 224), UInt8.ofNat (y + 128), UInt8.ofNat (z + 128)] := by
  have hvalid : ((x * 64 + y) * 64 + z).isValidChar := by
    rw [Nat.isValidChar]
    omega
  have h₁ : ((x * 64 + y) * 64 + z) / 4096 % 16 = x := by omega
  have h₂ : ((x * 64 + y) * 64 + z) / 64 % 64 = y := by omega
  have h₃ : ((x * 64 + y) * 64 + z) % 64 = z := by omega
  rw [encode_ofNat hvalid, if_neg (by omega), if_neg (by omega), if_pos (by omega), h₁, h₂, h₃]

theorem encode_four {x y z w : Nat} (hx : x < 5) (hy : y < 64) (hz : z < 64) (hw : w < 64)
    (hlong : x = 0 → 16 ≤ y) (habove : x = 4 → y < 16) :
    String.utf8EncodeChar (Char.ofNat (((x * 64 + y) * 64 + z) * 64 + w)) =
      [UInt8.ofNat (x + 240), UInt8.ofNat (y + 128), UInt8.ofNat (z + 128),
        UInt8.ofNat (w + 128)] := by
  have hvalid : (((x * 64 + y) * 64 + z) * 64 + w).isValidChar := by
    rw [Nat.isValidChar]
    omega
  have h₁ : (((x * 64 + y) * 64 + z) * 64 + w) / 262144 % 8 = x := by omega
  have h₂ : (((x * 64 + y) * 64 + z) * 64 + w) / 4096 % 64 = y := by omega
  have h₃ : (((x * 64 + y) * 64 + z) * 64 + w) / 64 % 64 = z := by omega
  have h₄ : (((x * 64 + y) * 64 + z) * 64 + w) % 64 = w := by omega
  rw [encode_ofNat hvalid, if_neg (by omega), if_neg (by omega), if_neg (by omega), h₁, h₂, h₃, h₄]

/-- The bytes with which an encoding may begin, by the number of those that follow. -/
theorem lead?_cases {b : UInt8} {lead : Lead} (h : lead? b = some lead) :
    (∃ x < 128, b = UInt8.ofNat x ∧ lead = ⟨x, 0x80, 0xBF, 0⟩) ∨
      (∃ x < 32, 2 ≤ x ∧ b = UInt8.ofNat (x + 192) ∧ lead = ⟨x, 0x80, 0xBF, 1⟩) ∨
      (∃ x < 16, b = UInt8.ofNat (x + 224) ∧
        lead = ⟨x, if x = 0 then 0xA0 else 0x80, if x = 13 then 0x9F else 0xBF, 2⟩) ∨
      ∃ x < 5, b = UInt8.ofNat (x + 240) ∧
        lead = ⟨x, if x = 0 then 0x90 else 0x80, if x = 4 then 0x8F else 0xBF, 3⟩ := by
  have hall : ∀ n < 256, ∀ l ∈ lead? (UInt8.ofNat n),
      (l.bits < 128 ∧ UInt8.ofNat n = UInt8.ofNat l.bits ∧ l = ⟨l.bits, 0x80, 0xBF, 0⟩) ∨
        (l.bits < 32 ∧ 2 ≤ l.bits ∧ UInt8.ofNat n = UInt8.ofNat (l.bits + 192) ∧
          l = ⟨l.bits, 0x80, 0xBF, 1⟩) ∨
        (l.bits < 16 ∧ UInt8.ofNat n = UInt8.ofNat (l.bits + 224) ∧
          l = ⟨l.bits, if l.bits = 0 then 0xA0 else 0x80, if l.bits = 13 then 0x9F else 0xBF, 2⟩) ∨
        (l.bits < 5 ∧ UInt8.ofNat n = UInt8.ofNat (l.bits + 240) ∧
          l = ⟨l.bits, if l.bits = 0 then 0x90 else 0x80, if l.bits = 4 then 0x8F else 0xBF, 3⟩) := by
    decide +kernel
  have hb := hall b.toNat b.toNat_lt lead
  rw [UInt8.ofNat_toNat] at hb
  rcases hb h with h₁ | h₂ | h₃ | h₄
  · exact .inl ⟨_, h₁⟩
  · exact .inr (.inl ⟨_, h₂⟩)
  · exact .inr (.inr (.inl ⟨_, h₃⟩))
  · exact .inr (.inr (.inr ⟨_, h₄⟩))

theorem continuation_some {bits more n : Nat} {lo hi : UInt8} {bytes : List UInt8} {c : Char}
    (h : continuation bits lo hi (more + 1) bytes = (some c, n)) (hlo : 128 ≤ lo.toNat)
    (hhi : hi.toNat ≤ 191) :
    ∃ y < 64, lo.toNat ≤ y + 128 ∧ y + 128 ≤ hi.toNat ∧ ∃ rest m,
      bytes = UInt8.ofNat (y + 128) :: rest ∧
        continuation (bits * 64 + y) 0x80 0xBF more rest = (some c, m) := by
  cases bytes with
  | nil => cases h
  | cons b rest =>
    rw [continuation] at h
    split at h
    · rename_i hb
      rw [UInt8.le_iff_toNat_le, UInt8.le_iff_toNat_le] at hb
      have hy : b.toNat - 128 + 128 = b.toNat := by omega
      refine ⟨b.toNat - 128, by omega, by omega, by omega, rest, ?_⟩
      rw [hy, UInt8.ofNat_toNat]
      exact ⟨_, rfl, Prod.ext (Prod.mk.inj h).1 rfl⟩
    · cases h

theorem prefix_of_decodeFirst {bytes : List UInt8} {c : Char} {n : Nat}
    (h : decodeFirst bytes = (some c, n)) : String.utf8EncodeChar c <+: bytes := by
  cases bytes with
  | nil => cases h
  | cons b rest =>
    simp only [decodeFirst] at h
    cases hb : lead? b with
    | none =>
      rw [hb] at h
      cases h
    | some lead =>
      rw [hb] at h
      obtain ⟨m, hc⟩ : ∃ m, continuation lead.bits lead.lo lead.hi lead.more rest = (some c, m) :=
        ⟨_, Prod.ext (Prod.mk.inj h).1 rfl⟩
      rcases lead?_cases hb with ⟨x, hx, rfl, rfl⟩ | ⟨x, hx, h2, rfl, rfl⟩ | ⟨x, hx, rfl, rfl⟩ |
        ⟨x, hx, rfl, rfl⟩
      all_goals dsimp only at hc
      · cases hc
        rw [encode_one hx]
        exact List.prefix_append [_] rest
      · obtain ⟨y, hy, -, -, rest, m, rfl, hy'⟩ := continuation_some hc (by decide) (by decide)
        cases hy'
        rw [encode_two h2 hx hy]
        exact List.prefix_append [_, _] rest
      · have hlo : 128 ≤ (if x = 0 then 0xA0 else 0x80 : UInt8).toNat := by split <;> decide
        have hhi : (if x = 13 then 0x9F else 0xBF : UInt8).toNat ≤ 191 := by split <;> decide
        obtain ⟨y, hy, hlo, hhi, rest, m, rfl, hy'⟩ := continuation_some hc hlo hhi
        obtain ⟨z, hz, -, -, rest, m, rfl, hz'⟩ := continuation_some hy' (by decide) (by decide)
        cases hz'
        have hlong : x = 0 → 32 ≤ y := by
          rintro rfl
          exact Nat.le_of_add_le_add_right (b := 128) hlo
        have hsurrogate : x = 13 → y < 32 := by
          rintro rfl
          exact Nat.lt_of_add_lt_add_right (Nat.lt_succ_of_le hhi)
        rw [encode_three hx hy hz hlong hsurrogate]
        exact List.prefix_append [_, _, _] rest
      · have hlo : 128 ≤ (if x = 0 then 0x90 else 0x80 : UInt8).toNat := by split <;> decide
        have hhi : (if x = 4 then 0x8F else 0xBF : UInt8).toNat ≤ 191 := by split <;> decide
        obtain ⟨y, hy, hlo, hhi, rest, m, rfl, hy'⟩ := continuation_some hc hlo hhi
        obtain ⟨z, hz, -, -, rest, m, rfl, hz'⟩ := continuation_some hy' (by decide) (by decide)
        obtain ⟨w, hw, -, -, rest, m, rfl, hw'⟩ := continuation_some hz' (by decide) (by decide)
        cases hw'
        have hlong : x = 0 → 16 ≤ y := by
          rintro rfl
          exact Nat.le_of_add_le_add_right (b := 128) hlo
        have habove : x = 4 → y < 16 := by
          rintro rfl
          exact Nat.lt_of_add_lt_add_right (Nat.lt_succ_of_le hhi)
        rw [encode_four hx hy hz hw hlong habove]
        exact List.prefix_append [_, _, _, _] rest

/-! ## Characters that are not there -/

theorem continuation_replicate (bits more : Nat) :
    ∃ c n, continuation bits 0x80 0xBF more (List.replicate more 0x80) = (some c, n) := by
  induction more generalizing bits with
  | zero => exact ⟨_, _, rfl⟩
  | succ more ih =>
    obtain ⟨c, n, hc⟩ := ih (bits * 64)
    refine ⟨c, n + 1, ?_⟩
    rw [List.replicate_succ, continuation, if_pos (by decide)]
    exact congrArg (fun p : Option Char × Nat => (p.1, p.2 + 1)) hc

theorem exists_continuation_nil {lo hi : UInt8} (hle : lo ≤ hi) (bits more : Nat) :
    ∃ fill c n, continuation bits lo hi (more + 1) fill = (some c, n) := by
  obtain ⟨c, n, hc⟩ := continuation_replicate (bits * 64 + (lo.toNat - 0x80)) more
  refine ⟨lo :: List.replicate more 0x80, c, n + 1, ?_⟩
  rw [continuation, if_pos ⟨UInt8.le_refl lo, hle⟩, hc]

/-- The bytes that fit can be completed to a character. -/
theorem exists_continuation {bits more : Nat} {lo hi : UInt8} {bytes : List UInt8} (hle : lo ≤ hi)
    (h : (continuation bits lo hi more bytes).1 = none) :
    ∃ fill c n, (continuation bits lo hi more bytes).2 ≤ n ∧
      continuation bits lo hi more
        (bytes.take (continuation bits lo hi more bytes).2 ++ fill) = (some c, n) := by
  fun_induction continuation bits lo hi more bytes with
  | case1 => cases h
  | case2 bits lo hi more =>
    obtain ⟨fill, c, n, hfill⟩ := exists_continuation_nil hle bits more
    exact ⟨fill, c, n, Nat.zero_le n, hfill⟩
  | case3 bits lo hi more b rest hb c size hc ih =>
    rw [hc] at ih
    obtain ⟨fill, c, n, hn, hfill⟩ := ih (by decide) h
    refine ⟨fill, c, n + 1, Nat.succ_le_succ hn, ?_⟩
    rw [List.take_succ_cons, List.cons_append, continuation, if_pos hb, hfill]
  | case4 bits lo hi more b rest hb =>
    obtain ⟨fill, c, n, hfill⟩ := exists_continuation_nil hle bits more
    exact ⟨fill, c, n, Nat.zero_le n, hfill⟩

theorem lead?_lo_le {b : UInt8} {lead : Lead} (h : lead? b = some lead) : lead.lo ≤ lead.hi := by
  have hall : ∀ n < 256, ∀ l ∈ lead? (UInt8.ofNat n), l.lo ≤ l.hi := by
    decide +kernel
  have hb := hall b.toNat b.toNat_lt lead
  rw [UInt8.ofNat_toNat] at hb
  exact hb h

theorem begins_of_decodeFirst {b : UInt8} {rest : List UInt8} {lead : Lead}
    (hb : lead? b = some lead) (h : (decodeFirst (b :: rest)).1 = none) :
    Begins ((b :: rest).take (decodeFirst (b :: rest)).2) := by
  simp only [decodeFirst, hb] at h ⊢
  obtain ⟨fill, c, n, hn, hfill⟩ := exists_continuation (lead?_lo_le hb) h
  generalize (continuation lead.bits lead.lo lead.hi lead.more rest).2 = size at hn hfill ⊢
  have hfirst : decodeFirst (b :: (rest.take size ++ fill)) = (some c, n + 1) := by
    simp only [decodeFirst, hb, hfill]
  have hprefix := prefix_of_decodeFirst hfirst
  have hlen : n + 1 = (String.utf8EncodeChar c).length :=
    congrArg Prod.snd (hfirst.symm.trans (decodeFirst_of_encode hprefix))
  refine ⟨c, List.prefix_of_prefix_length_le ?_ hprefix ?_⟩
  · rw [List.take_succ_cons, ← List.cons_append]
    exact List.prefix_append _ fill
  · exact Nat.le_trans (List.length_take_le _ _) (hlen ▸ Nat.succ_le_succ hn)

/-- More bytes can only add to what is taken off. -/
theorem continuation_size_append (bits : Nat) (lo hi : UInt8) (more : Nat)
    (bytes later : List UInt8) :
    (continuation bits lo hi more bytes).2 ≤ (continuation bits lo hi more (bytes ++ later)).2 := by
  fun_induction continuation bits lo hi more bytes with
  | case1 => exact Nat.zero_le _
  | case2 => exact Nat.zero_le _
  | case3 bits lo hi n b rest hb c size hc ih =>
    rw [hc] at ih
    rw [List.cons_append, continuation, if_pos hb]
    exact Nat.succ_le_succ ih
  | case4 => exact Nat.zero_le _

theorem decodeFirst_size_append (bytes later : List UInt8) :
    (decodeFirst bytes).2 ≤ (decodeFirst (bytes ++ later)).2 := by
  cases bytes with
  | nil => exact Nat.zero_le _
  | cons b rest =>
    rw [List.cons_append, decodeFirst, decodeFirst]
    cases lead? b with
    | none => exact Nat.le_refl _
    | some lead => exact Nat.succ_le_succ (continuation_size_append _ _ _ _ rest later)

/-- No encoding begins with more bytes than are taken off. -/
theorem not_begins_of_decodeFirst {bytes : List UInt8} (h : (decodeFirst bytes).1 = none) {n : Nat}
    (hn : (decodeFirst bytes).2 < n) (hle : n ≤ bytes.length) : ¬Begins (bytes.take n) := by
  rintro ⟨c, later, hc⟩
  have hsize := decodeFirst_size_append (bytes.take n) (bytes.drop n)
  rw [List.take_append_drop] at hsize
  have hlen : (bytes.take n).length = n := List.length_take_of_le hle
  have hd : Decided (bytes.take n) (decodeFirst (bytes.take n)) := .inr (by omega)
  have hfirst : decodeFirst (bytes.take n) = decodeFirst bytes := by
    rw [← decodeFirst_append hd (bytes.drop n), List.take_append_drop]
  have hsome := decodeFirst_append hd later
  rw [hc, decodeFirst_of_encode List.prefix_rfl, hfirst] at hsome
  rw [← hsome] at h
  cases h

/-! ## The decoder -/

theorem startsWith_decodeFirst {bytes : List UInt8} (hne : bytes ≠ []) :
    StartsWith bytes (decodeFirst bytes) := by
  cases hfirst : decodeFirst bytes with
  | mk answer size =>
    cases answer with
    | some c =>
      have hprefix := prefix_of_decodeFirst hfirst
      rw [decodeFirst_of_encode hprefix] at hfirst
      cases hfirst
      exact .char hprefix
    | none =>
      have hnone : (decodeFirst bytes).1 = none := by rw [hfirst]
      have hsize : (decodeFirst bytes).2 = size := by rw [hfirst]
      refine .broken ⟨?_, ?_, ?_, ?_, ?_⟩
      · intro c hc
        rw [decodeFirst_of_encode hc] at hfirst
        cases hfirst
      · exact hsize ▸ decoder.size_pos hne
      · exact hsize ▸ decodeFirst_size_le bytes
      · cases bytes with
        | nil => exact absurd rfl hne
        | cons b rest =>
          cases hb : lead? b with
          | none =>
            simp only [decodeFirst, hb] at hsize
            exact .inl hsize.symm
          | some lead => exact .inr (hsize ▸ begins_of_decodeFirst hb hnone)
      · intro n hn hle
        exact not_begins_of_decodeFirst hnone (hsize ▸ hn) hle

/-- The decoder takes off what the bytes start with. -/
theorem takesFirst_decoder : decoder.TakesFirst :=
  fun _ => startsWith_decodeFirst

/-- The decoder gives the characters that the bytes stand for. -/
theorem decodesAll_decoder : decoder.DecodesAll := by
  intro bytes
  show StandsFor bytes (decode bytes)
  fun_induction decode bytes with
  | case1 => exact .nil
  | case2 b rest first ih => exact .cons (startsWith_decodeFirst (List.cons_ne_nil b rest)) ih

end RewindLexer.Text.Utf8
