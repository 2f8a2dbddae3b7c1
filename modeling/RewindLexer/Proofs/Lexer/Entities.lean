import RewindLexer.Lexer.Entity
import RewindLexer.Proofs.Text.Numeral
import Mathlib.Data.List.Basic

/-!
# What entities stand for

`Entity.Denotes body c` says which character an entity stands for: a code point in decimal digits
after `#`, or a name of the table. Main statement: `Entity.decode` gives a character exactly if the
entity denotes it. That halving finds a name wherever it stands rests on the order of the table.
-/

namespace RewindLexer

open Text

namespace Entity

/-! ## The table -/

theorem pairwise_table : table.toList.Pairwise fun a b => a.1 < b.1 := by
  decide +kernel

theorem lt_of_getElem? {i j : Nat} {a b : String × Char} (ha : table[i]? = some a)
    (hb : table[j]? = some b) (h : i < j) : a.1 < b.1 := by
  rw [← Array.getElem?_toList, List.getElem?_eq_some_iff] at ha hb
  obtain ⟨hi, rfl⟩ := ha
  obtain ⟨hj, rfl⟩ := hb
  exact List.pairwise_iff_getElem.1 pairwise_table i j hi hj h

theorem lt_of_lt_key {i j : Nat} {a b : String × Char} (ha : table[i]? = some a)
    (hb : table[j]? = some b) (h : a.1 < b.1) : i < j := by
  rcases Nat.lt_trichotomy i j with hlt | rfl | hgt
  · exact hlt
  · rw [ha] at hb
    cases hb
    exact absurd h (String.lt_irrefl _)
  · exact absurd (lt_of_getElem? hb ha hgt) (String.lt_asymm h)

/-- Halving the entries `lo ≤ i < hi` finds what is among them, and nothing else. -/
theorem search_eq_some_iff {name : String} {lo hi : Nat} {c : Char} (h : hi ≤ table.size) :
    search name lo hi = some c ↔ ∃ i, lo ≤ i ∧ i < hi ∧ table[i]? = some (name, c) := by
  fun_induction search name lo hi with
  | case1 lo hi hlt mid hmid =>
    have hout := Array.getElem?_eq_none_iff.1 hmid
    omega
  | case2 lo hi hlt mid key d hmid hless ih =>
    rw [ih (by omega)]
    constructor
    · rintro ⟨i, hlo, hhi, hi⟩
      exact ⟨i, hlo, by omega, hi⟩
    · rintro ⟨i, hlo, hhi, hi⟩
      exact ⟨i, hlo, lt_of_lt_key hi hmid hless, hi⟩
  | case3 lo hi hlt mid key d hmid _ hmore ih =>
    rw [ih h]
    constructor
    · rintro ⟨i, hlo, hhi, hi⟩
      exact ⟨i, by omega, hhi, hi⟩
    · rintro ⟨i, hlo, hhi, hi⟩
      exact ⟨i, lt_of_lt_key hmid hi hmore, hhi, hi⟩
  | case4 lo hi hlt mid key d hmid hless hmore =>
    have hkey : key = name := String.le_antisymm (String.not_lt.1 hless) (String.not_lt.1 hmore)
    subst hkey
    constructor
    · intro hd
      cases hd
      exact ⟨mid, by omega, by omega, hmid⟩
    · rintro ⟨i, hlo, hhi, hi⟩
      -- Two entries with one name are one entry.
      have himid : i = mid := by
        rcases Nat.lt_trichotomy i mid with hl | he | hg
        · exact absurd (lt_of_getElem? hi hmid hl) (String.lt_irrefl _)
        · exact he
        · exact absurd (lt_of_getElem? hmid hi hg) (String.lt_irrefl _)
      rw [himid, hmid] at hi
      cases hi
      rfl
  | case5 lo hi hge =>
    constructor
    · intro hc
      cases hc
    · rintro ⟨i, hlo, hhi, -⟩
      omega

theorem lookup?_eq_some_iff {name : String} {c : Char} :
    lookup? name = some c ↔ (name, c) ∈ table := by
  rw [lookup?, search_eq_some_iff (Nat.le_refl _), Array.mem_iff_getElem?]
  constructor
  · rintro ⟨i, -, -, hi⟩
    exact ⟨i, hi⟩
  · rintro ⟨i, hi⟩
    obtain ⟨hlt, -⟩ := Array.getElem?_eq_some_iff.1 hi
    exact ⟨i, Nat.zero_le i, hlt, hi⟩

theorem lookup_eq_some_iff_of_pairwise {entries : List (String × Char)}
    (h : entries.Pairwise fun a b => a.1 < b.1) {name : String} {c : Char} :
    entries.lookup name = some c ↔ (name, c) ∈ entries := by
  rw [List.lookup_eq_some_iff]
  constructor
  · rintro ⟨before, after, rfl, -⟩
    exact List.mem_append_right before List.mem_cons_self
  · intro hmem
    obtain ⟨before, after, rfl⟩ := List.append_of_mem hmem
    refine ⟨before, after, rfl, fun entry hentry => ?_⟩
    have hlt : entry.1 < name := (List.pairwise_append.1 h).2.2 entry hentry _ List.mem_cons_self
    rw [bne_iff_ne]
    rintro rfl
    exact String.lt_irrefl _ hlt

/-- Halving the table finds what reading it from its start finds: the character in the entry with
the name, and nothing if there is no such entry. -/
theorem lookup?_eq_lookup_toList (name : String) :
    lookup? name = table.toList.lookup name ∧
      (∀ c, lookup? name = some c ↔ (name, c) ∈ table) ∧
      (lookup? name = none ↔ ∀ c, (name, c) ∉ table) := by
  refine ⟨?_, fun c => lookup?_eq_some_iff, ?_⟩
  · refine Option.ext fun c => ?_
    rw [lookup?_eq_some_iff, lookup_eq_some_iff_of_pairwise pairwise_table, Array.mem_toList_iff]
  · rw [Option.eq_none_iff_forall_ne_some]
    exact forall_congr' fun c => not_congr lookup?_eq_some_iff

/-! ## Entities -/

theorem charOfCode?_eq_some_iff {n : Nat} {c : Char} : charOfCode? n = some c ↔ n = c.toNat := by
  rw [charOfCode?]
  constructor
  · intro h
    split at h
    · rename_i hn
      cases h
      rw [Char.ofNat, dif_pos hn]
      rfl
    · cases h
  · rintro rfl
    have hc : c.toNat.isValidChar := c.valid
    rw [if_pos hc, Char.ofNat_toNat]

/-- The character that an entity stands for, given what is between `&` and `;`. -/
inductive Denotes : List Char → Char → Prop where
  /-- The code point of the character, as a number of 32 bits. -/
  | code {digits : List Char} {n : Nat} {c : Char} (hd : Numeral.Spells digits n)
    (hn : n < UInt32.size) (hc : n = c.toNat) : Denotes ('#' :: digits) c
  | name {body : List Char} {c : Char} (h : (String.ofList body, c) ∈ table) : Denotes body c

theorem head?_ne_of_mem_table {entry : String × Char} (h : entry ∈ table) :
    entry.1.toList.head? ≠ some '#' := by
  have hall : ∀ entry ∈ table, entry.1.toList.head? ≠ some '#' := by
    decide +kernel
  exact hall entry h

theorem decode_code {d : Char} {ds : List Char} {c : Char} :
    decode ('#' :: d :: ds) = .ok c ↔
      ∃ n, Numeral.Spells (d :: ds) n ∧ n < UInt32.size ∧ n = c.toNat := by
  have hiff : (Numeral.word? (d :: ds)).bind charOfCode? = some c ↔
      ∃ n, Numeral.Spells (d :: ds) n ∧ n < UInt32.size ∧ n = c.toNat := by
    simp only [Option.bind_eq_some_iff, Numeral.word?_eq_some_iff, charOfCode?_eq_some_iff,
      and_assoc]
  rw [← hiff, decode]
  cases (Numeral.word? (d :: ds)).bind charOfCode? with
  | none => simp
  | some e => simp

theorem decode_name {body : List Char} {c : Char} (hb : ∀ d ds, body ≠ '#' :: d :: ds) :
    decode body = .ok c ↔ (String.ofList body, c) ∈ table := by
  rw [← lookup?_eq_some_iff, decode]
  · cases lookup? (String.ofList body) with
    | none => simp
    | some e => simp
  · exact hb

/-- An entity is decoded exactly if it stands for a character. -/
theorem decode_eq_ok_iff {body : List Char} {c : Char} :
    decode body = .ok c ↔ Denotes body c := by
  by_cases hb : ∃ d ds, body = '#' :: d :: ds
  · obtain ⟨d, ds, rfl⟩ := hb
    rw [decode_code]
    constructor
    · rintro ⟨n, hd, hn, hc⟩
      exact .code hd hn hc
    · intro h
      cases h with
      | code hd hn hc => exact ⟨_, hd, hn, hc⟩
      | name h =>
        have hne := head?_ne_of_mem_table h
        rw [String.toList_ofList] at hne
        exact absurd rfl hne
  · have hb : ∀ d ds, body ≠ '#' :: d :: ds := fun d ds he => hb ⟨d, ds, he⟩
    rw [decode_name hb]
    constructor
    · intro h
      exact .name h
    · intro h
      cases h with
      | @code digits n c hd hn hc =>
        cases digits with
        | nil => exact absurd rfl hd.ne_nil
        | cons d ds => exact absurd rfl (hb d ds)
      | name h => exact h

end Entity

end RewindLexer
