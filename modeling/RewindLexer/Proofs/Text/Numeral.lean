import RewindLexer.Text.Numeral
import Mathlib.Algebra.Ring.Int.Defs
import Mathlib.Data.List.Basic

/-!
# What numerals denote

A row of digits denotes a number by its places. Main statements: each reader of `Text.Numeral`
accepts exactly the texts that denote a number in its range and answers that number, and the digits
of an integer are read back as that integer.
-/

namespace RewindLexer.Text.Numeral

theorem digits?_eq_some_iff {text : List Char} {n : Nat} :
    digits? text = some n ↔ text ≠ [] ∧ (∀ d ∈ text, isDigit d = true) ∧ value text = n := by
  have hrow : (!text.isEmpty && text.all isDigit) = true ↔
      text ≠ [] ∧ ∀ d ∈ text, isDigit d = true := by
    simp [List.all_eq_true]
  rw [digits?, ← and_assoc, ← hrow]
  split
  · rename_i h
    simp [h]
  · rename_i h
    simp [h]

theorem isDigit_plus : isDigit '+' = false := by
  decide

/-- A row of digits after an optional plus sign. -/
def Spells (text : List Char) (n : Nat) : Prop :=
  ∃ sign digits, text = sign ++ digits ∧ (sign = [] ∨ sign = ['+']) ∧ digits ≠ [] ∧
    (∀ d ∈ digits, isDigit d = true) ∧ value digits = n

theorem Spells.ne_nil {text : List Char} {n : Nat} (h : Spells text n) : text ≠ [] := by
  obtain ⟨sign, digits, rfl, -, hne, -⟩ := h
  exact List.append_ne_nil_of_right_ne_nil sign hne

theorem natural?_eq_some_iff {text : List Char} {n : Nat} :
    natural? text = some n ↔ Spells text n := by
  constructor
  · intro h
    unfold natural? at h
    split at h
    · rename_i digits
      exact ⟨['+'], digits, rfl, .inr rfl, digits?_eq_some_iff.1 h⟩
    · exact ⟨[], text, rfl, .inl rfl, digits?_eq_some_iff.1 h⟩
  · rintro ⟨sign, digits, rfl, rfl | rfl, hd⟩
    · rw [List.nil_append, natural?]
      · exact digits?_eq_some_iff.2 hd
      · rintro rest rfl
        have hplus := hd.2.1 '+' List.mem_cons_self
        rw [isDigit_plus] at hplus
        cases hplus
    · exact digits?_eq_some_iff.2 hd

theorem word?_eq_some_iff {text : List Char} {n : Nat} :
    word? text = some n ↔ Spells text n ∧ n < UInt32.size := by
  rw [word?, Option.filter_eq_some_iff, natural?_eq_some_iff]
  simp

/-! ## The places of a row of digits -/

/-- The number that a row of digits denotes in base ten. -/
def Row (digits : List Char) (n : Nat) : Prop :=
  digits ≠ [] ∧ (∀ d ∈ digits, isDigit d = true) ∧ Nat.ofDigitChars 10 digits 0 = n

theorem value_eq_ofDigitChars (digits : List Char) :
    value digits = Nat.ofDigitChars 10 digits 0 := by
  simp only [value, digitValue, Nat.ofDigitChars_eq_foldl, Nat.mul_comm]

theorem digits?_eq_some_iff_row {text : List Char} {n : Nat} :
    digits? text = some n ↔ Row text n := by
  rw [digits?_eq_some_iff, value_eq_ofDigitChars, Row]

/-- Besides a row of digits, one with a plus sign in front is a numeral. -/
theorem spells_iff {text : List Char} {n : Nat} :
    Spells text n ↔ Row text n ∨ ∃ digits, text = '+' :: digits ∧ Row digits n := by
  constructor
  · rintro ⟨sign, digits, rfl, rfl | rfl, hd⟩
    · exact .inl (digits?_eq_some_iff_row.1 (digits?_eq_some_iff.2 hd))
    · exact .inr ⟨digits, rfl, digits?_eq_some_iff_row.1 (digits?_eq_some_iff.2 hd)⟩
  · rintro (h | ⟨digits, rfl, h⟩)
    · exact ⟨[], text, rfl, .inl rfl, digits?_eq_some_iff.1 (digits?_eq_some_iff_row.2 h)⟩
    · exact ⟨['+'], digits, rfl, .inr rfl, digits?_eq_some_iff.1 (digits?_eq_some_iff_row.2 h)⟩

theorem row_toDigits (n : Nat) : Row (Nat.toDigits 10 n) n := by
  refine ⟨Nat.toDigits_ne_nil, ?_, Nat.ofDigitChars_ten_toDigits⟩
  intro d hd
  exact Nat.isDigit_of_mem_toDigits (by decide) (by decide) hd

/-! ## Integers -/

/-- The integer that a numeral denotes: a row of digits, or a minus sign and a row of digits. -/
inductive Denotes : List Char → Int → Prop where
  | natural {digits : List Char} {n : Nat} (h : Row digits n) : Denotes digits n
  | negative {digits : List Char} {n : Nat} (h : Row digits n) : Denotes ('-' :: digits) (-n)

theorem isDigit_minus : isDigit '-' = false := by
  decide

theorem integer?_minus (digits : List Char) :
    integer? ('-' :: digits) = (digits? digits).map fun n : Nat => -(n : Int) := by
  rw [integer?]
  cases digits? digits with
  | none => rfl
  | some n => rfl

theorem integer?_of_ne {text : List Char} (h : text.head? ≠ some '-') :
    integer? text = (natural? text).map Int.ofNat := by
  rw [integer?]
  rintro digits rfl
  exact h rfl

theorem Row.head?_ne {digits : List Char} {n : Nat} (h : Row digits n) {c : Char}
    (hc : isDigit c = false) : digits.head? ≠ some c := by
  intro hhead
  have hd := h.2.1 c (List.mem_of_mem_head? hhead)
  rw [hc] at hd
  cases hd

theorem integer?_eq_some_iff {text : List Char} (hplus : text.head? ≠ some '+') {z : Int} :
    integer? text = some z ↔ Denotes text z := by
  constructor
  · intro h
    by_cases hminus : text.head? = some '-'
    · obtain ⟨digits, rfl⟩ := List.head?_eq_some_iff.1 hminus
      rw [integer?_minus, Option.map_eq_some_iff] at h
      obtain ⟨n, hn, rfl⟩ := h
      exact .negative (digits?_eq_some_iff_row.1 hn)
    · rw [integer?_of_ne hminus, Option.map_eq_some_iff] at h
      obtain ⟨n, hn, rfl⟩ := h
      rcases spells_iff.1 (natural?_eq_some_iff.1 hn) with hrow | ⟨digits, rfl, -⟩
      · exact .natural hrow
      · exact absurd rfl hplus
  · intro h
    cases h with
    | natural h =>
      rw [integer?_of_ne (h.head?_ne isDigit_minus),
        natural?_eq_some_iff.2 (spells_iff.2 (.inl h))]
      rfl
    | negative h =>
      rw [integer?_minus, digits?_eq_some_iff_row.2 h]
      rfl

theorem int64OfInt?_eq_some_iff {z : Int} {v : Int64} :
    int64OfInt? z = some v ↔ v.toInt = z := by
  rw [int64OfInt?, Int64.toInt_minValue, Int64.toInt_maxValue]
  constructor
  · intro h
    split at h
    · rename_i hrange
      cases h
      exact Int64.toInt_ofInt_of_le hrange.1 (by omega)
    · cases h
  · rintro rfl
    have hlo := v.le_toInt
    have hhi := v.toInt_lt
    rw [if_pos ⟨hlo, by omega⟩, Int64.ofInt_toInt]

theorem int64OfInt?_eq_none_iff {z : Int} :
    int64OfInt? z = none ↔ z < -2 ^ 63 ∨ 2 ^ 63 - 1 < z := by
  rw [int64OfInt?, Int64.toInt_minValue, Int64.toInt_maxValue, ite_eq_right_iff]
  simp only [reduceCtorEq, imp_false]
  omega

theorem int64?_eq_some_iff {text : List Char} (hplus : text.head? ≠ some '+') {v : Int64} :
    int64? text = some v ↔ Denotes text v.toInt := by
  simp only [int64?, Option.bind_eq_some_iff, integer?_eq_some_iff hplus, int64OfInt?_eq_some_iff,
    exists_eq_right']

theorem Denotes.int64?_eq_none {text : List Char} {z : Int} (h : Denotes text z)
    (hplus : text.head? ≠ some '+') (hz : z < -2 ^ 63 ∨ 2 ^ 63 - 1 < z) : int64? text = none := by
  rw [int64?, (integer?_eq_some_iff hplus).2 h]
  exact int64OfInt?_eq_none_iff.2 hz

/-- An integer is denoted by its decimal digits, with a minus sign if it is negative. -/
theorem denotes_toString (z : Int) : Denotes (toString z).toList z := by
  rw [Int.toString_eq_repr, Int.repr_eq_if]
  split
  · rename_i hz
    have h := Denotes.natural (row_toDigits z.toNat)
    rw [Int.toNat_of_nonneg hz] at h
    rwa [Nat.toList_repr]
  · rename_i hz
    have h := Denotes.negative (row_toDigits (-z).toNat)
    rw [Int.toNat_of_nonneg (by omega), Int.neg_neg] at h
    rwa [String.toList_append, Nat.toList_repr]

end RewindLexer.Text.Numeral
