import RewindLexer.Json.Format
import RewindLexer.Proofs.Text.Numeral

/-!
# What is written

The text that a writer gives for a value follows the grammar and denotes that value. Main statement:
this holds for every portable value. Strings need no condition: every character that may not stand
in a string is written as an escape.
-/

namespace RewindLexer.Json

open Text

theorem blanks_nil : Blanks [] :=
  nofun

/-! ## Strings -/

theorem hexDigit_mem {n : Nat} (h : n < 16) : (hexDigit n, n) ∈ hexDigits := by
  have hall : ∀ n < 16, (hexDigit n, n) ∈ hexDigits := by decide
  exact hall n h

theorem denotesUnit_hexDigit {n : Nat} (h : n < 0x100) :
    DenotesUnit ['0', '0', hexDigit (n / 16), hexDigit (n % 16)] n := by
  have hunit := DenotesUnit.digits (by decide : ('0', 0) ∈ hexDigits)
    (by decide : ('0', 0) ∈ hexDigits) (hexDigit_mem (n := n / 16) (by omega))
    (hexDigit_mem (n := n % 16) (by omega))
  have hvalue : ((0 * 16 + 0) * 16 + n / 16) * 16 + n % 16 = n := by omega
  rwa [hvalue] at hunit

/-- A character is written as a backslash and a letter, by its code, or as it is. -/
theorem escape_cases (c : Char) :
    (∃ d, (c, d) ∈ shortEscapes ∧ escape c = ['\\', d]) ∨
      (c.toNat < 0x20 ∧ escape c =
        ['\\', 'u', '0', '0', hexDigit (c.toNat / 16), hexDigit (c.toNat % 16)]) ∨
      (0x20 ≤ c.toNat ∧ c ≠ '"' ∧ c ≠ '\\' ∧ escape c = [c]) := by
  by_cases hshort : ∃ d, (c, d) ∈ shortEscapes
  · obtain ⟨d, hd⟩ := hshort
    have hall : ∀ p ∈ shortEscapes, escape p.1 = ['\\', p.2] := by decide
    exact .inl ⟨d, hd, hall (c, d) hd⟩
  · have hne : ∀ p ∈ shortEscapes, c ≠ p.1 := by
      rintro ⟨c', d⟩ hp rfl
      exact hshort ⟨d, hp⟩
    simp only [shortEscapes, List.forall_mem_cons] at hne
    obtain ⟨hquote, hslash, hb, ht, hn, hf, hr, -⟩ := hne
    rw [escape, if_neg hquote, if_neg hslash, if_neg hb, if_neg ht, if_neg hn, if_neg hf, if_neg hr]
    by_cases hc : c.toNat < 0x20
    · exact .inr (.inl ⟨hc, if_pos hc⟩)
    · exact .inr (.inr ⟨Nat.not_lt.1 hc, hquote, hslash, if_neg hc⟩)

theorem denotesChar_escape (c : Char) : DenotesChar (escape c) c := by
  obtain ⟨d, hd, h⟩ | ⟨hc, h⟩ | ⟨hc, hquote, hslash, h⟩ := escape_cases c
  · rw [h]
    exact .short (List.mem_cons_of_mem _ hd)
  · rw [h]
    exact .code (denotesUnit_hexDigit (by omega))
  · rw [h]
    exact .plain hc hquote hslash

theorem denotesString_escape (s : String) :
    DenotesString ('"' :: (s.toList.flatMap escape ++ ['"'])) s := by
  have h := @DenotesString.quoted (s.toList.map fun c => (escape c, c))
    (by simp [denotesChar_escape])
  have hchars : (s.toList.map fun c => (escape c, c)).map Prod.snd = s.toList := by
    rw [List.map_map]
    exact List.map_id s.toList
  rwa [List.flatMap_map, hchars, String.ofList_toList] at h

/-! ## Integers -/

/-- The digits of a number other than zero do not start with zero. -/
theorem head?_toDigits_ne {n : Nat} (h : 0 < n) : (Nat.toDigits 10 n).head? ≠ some '0' := by
  induction n using Nat.strongRecOn with
  | ind n ih =>
    by_cases hn : n < 10
    · have hall : ∀ n < 10, 0 < n → some n.digitChar ≠ some '0' := by decide
      rw [Nat.toDigits_of_lt_base hn]
      exact hall n hn h
    · have hhead : (Nat.toDigits 10 n).head? = (Nat.toDigits 10 (n / 10)).head? := by
        rw [Nat.toDigits_of_base_le (by decide) (Nat.not_lt.1 hn)]
        exact List.head?_append_of_ne_nil _ Nat.toDigits_ne_nil
      rw [hhead]
      exact ih (n / 10) (by omega) (by omega)

theorem wholeForm_toDigits (n : Nat) : WholeForm (Nat.toDigits 10 n) := by
  rcases Nat.eq_zero_or_pos n with rfl | hpos
  · exact .zero
  · have hne := head?_toDigits_ne hpos
    have hdigits := (Numeral.row_toDigits n).2.1
    cases h : Nat.toDigits 10 n with
    | nil => exact absurd h Nat.toDigits_ne_nil
    | cons d ds =>
      rw [h] at hne hdigits
      exact .digits (fun hd => hne (congrArg some hd)) hdigits

theorem value_toDigits (n : Nat) : Numeral.value (Nat.toDigits 10 n) = n := by
  rw [Numeral.value_eq_ofDigitChars, Nat.ofDigitChars_ten_toDigits]

theorem writeInt_eq (n : Int) : writeInt n = (toString n).toList := by
  cases n with
  | ofNat n => exact Nat.toList_repr.symm
  | negSucc n =>
    show '-' :: Nat.toDigits 10 (n + 1) = ("-" ++ Nat.repr (n + 1)).toList
    rw [String.toList_append, Nat.toList_repr]
    rfl

theorem denotes_writeInt (n : Int) : Denotes (writeInt n) (.int n) := by
  cases n with
  | ofNat n =>
    have h := Denotes.natural (wholeForm_toDigits n)
    rwa [value_toDigits] at h
  | negSucc n =>
    have hzero : Nat.toDigits 10 (n + 1) ≠ ['0'] := by
      intro heq
      have hne := head?_toDigits_ne (Nat.succ_pos n)
      rw [heq] at hne
      exact hne rfl
    have h := Denotes.negative (wholeForm_toDigits (n + 1)) hzero
    rwa [value_toDigits] at h

/-! ## Values -/

section

variable {f : Format}

theorem denotesItems_intercalate {v : Json} {items : List Json} (hv : Denotes (f.chars v) v)
    (h : ∀ w ∈ items, Denotes (f.chars w) w) :
    DenotesItems ([','].intercalate ((v :: items).map f.chars) ++ [']']) (v :: items) := by
  induction items generalizing v with
  | nil =>
    have hlast := DenotesItems.last blanks_nil hv blanks_nil
    simpa using hlast
  | cons w items ih =>
    have hrest := ih (h w List.mem_cons_self) fun u hu => h u (List.mem_cons_of_mem w hu)
    have hmore := DenotesItems.more blanks_nil hv blanks_nil hrest
    simpa [List.intercalate_cons_cons] using hmore

theorem denotesName_chars (hf : f.Writes) (name : String) :
    DenotesName (f.chars (.str name) ++ [':']) name := by
  rw [hf.str]
  exact .padded blanks_nil (denotesString_escape name) blanks_nil

theorem denotesMembers_intercalate (hf : f.Writes) {m : String × Json}
    {members : List (String × Json)} (hm : Denotes (f.chars m.2) m.2)
    (h : ∀ w ∈ members, Denotes (f.chars w.2) w.2) :
    DenotesMembers
      ([','].intercalate ((m :: members).map fun w => f.chars (.str w.1) ++ ':' :: f.chars w.2) ++
        ['\x7d'])
      (m :: members) := by
  induction members generalizing m with
  | nil =>
    have hlast := DenotesMembers.last (denotesName_chars hf m.1) blanks_nil hm blanks_nil
    simpa using hlast
  | cons w members ih =>
    have hrest := ih (h w List.mem_cons_self) fun u hu => h u (List.mem_cons_of_mem w hu)
    have hmore := DenotesMembers.more (denotesName_chars hf m.1) blanks_nil hm blanks_nil hrest
    simpa [List.intercalate_cons_cons] using hmore

theorem Portable.denotes {depth : Nat} {v : Json} (hf : f.Writes) (h : Portable depth v) :
    Denotes (f.chars v) v := by
  induction h with
  | null =>
    rw [hf.null]
    exact .null
  | @bool _ b =>
    rw [hf.bool]
    exact .bool b
  | int _ _ =>
    rw [hf.int, ← writeInt_eq]
    exact denotes_writeInt _
  | str =>
    rw [hf.str]
    exact .string (denotesString_escape _)
  | @arr _ items _ ih =>
    rw [hf.arr]
    cases items with
    | nil => exact .emptyArr blanks_nil
    | cons v items =>
      rw [List.forall_mem_cons] at ih
      exact .arr (denotesItems_intercalate ih.1 ih.2)
  | @obj _ members _ _ ih =>
    rw [hf.obj]
    cases members with
    | nil => exact .emptyObj blanks_nil
    | cons m members =>
      rw [List.forall_mem_cons] at ih
      exact .obj (denotesMembers_intercalate hf ih.1 ih.2)

/-- The text of a portable value denotes that value. -/
theorem Portable.textOf {depth : Nat} {v : Json} (hf : f.Writes) (h : Portable depth v) :
    TextOf (f.write v) v := by
  have htext := TextOf.padded blanks_nil (h.denotes hf) blanks_nil
  rwa [List.nil_append, List.append_nil, Format.chars, String.ofList_toList] at htext

end

/-! ## The writer of this library -/

theorem chars_format (v : Json) : format.chars v = v.write :=
  String.toList_ofList

theorem writeItems_cons_cons (v w : Json) (items : List Json) :
    writeItems (v :: w :: items) = v.write ++ ',' :: writeItems (w :: items) :=
  rfl

theorem writeMembers_cons_cons (m m' : String × Json) (members : List (String × Json)) :
    writeMembers (m :: m' :: members) =
      writeString m.1 ++ ':' :: (m.2.write ++ ',' :: writeMembers (m' :: members)) :=
  rfl

theorem writeItems_eq (items : List Json) :
    writeItems items = [','].intercalate (items.map write) := by
  induction items with
  | nil => rfl
  | cons v items ih =>
    cases items with
    | nil => simp [writeItems]
    | cons w items =>
      rw [writeItems_cons_cons, ih]
      simp [List.intercalate_cons_cons]

theorem writeMembers_eq (members : List (String × Json)) :
    writeMembers members =
      [','].intercalate (members.map fun m => writeString m.1 ++ ':' :: write m.2) := by
  induction members with
  | nil => rfl
  | cons m members ih =>
    cases members with
    | nil => simp [writeMembers]
    | cons m' members =>
      rw [writeMembers_cons_cons, ih]
      simp [List.intercalate_cons_cons]

theorem writes_format : format.Writes where
  null := rfl
  bool b := by
    cases b with
    | true => rfl
    | false => rfl
  int n := (chars_format (.int n)).trans (writeInt_eq n)
  str s := chars_format (.str s)
  arr items := by
    have hchars : format.chars = write := funext chars_format
    rw [hchars, ← writeItems_eq]
    rfl
  obj members := by
    have hchars : format.chars = write := funext chars_format
    have hmembers := writeMembers_eq members
    rw [hchars]
    exact congrArg (fun s => '\x7b' :: (s ++ ['\x7d'])) hmembers

end RewindLexer.Json
