import RewindLexer.Text.Decoder

/-!
# What bytes stand for

No encoding is the beginning of another one, so that bytes start with one thing and stand for one
text. What comes behind makes no difference once the first character is settled, and bytes that
settle nothing are three at most. What is proved here of decoders rests on nothing but the two
promises that they may give.
-/

namespace RewindLexer.Text.Utf8

/-- What has been read off the front is a character, or ends before the bytes do. -/
def Decided (bytes : List UInt8) (first : Option Char × Nat) : Prop :=
  first.1.isSome = true ∨ first.2 < bytes.length

variable {bytes : List UInt8} {text : List Char}

/-! ## Encodings -/

theorem encode_inj {c c' : Char} (h : String.utf8EncodeChar c <+: bytes)
    (h' : String.utf8EncodeChar c' <+: bytes) : c = c' := by
  obtain ⟨rest, rfl⟩ := h
  obtain ⟨rest', heq⟩ := h'
  have hc := ByteArray.utf8DecodeChar?_utf8EncodeChar_append (b := rest.toByteArray) (c := c)
  have hc' := ByteArray.utf8DecodeChar?_utf8EncodeChar_append (b := rest'.toByteArray) (c := c')
  rw [← List.toByteArray_append, heq, List.toByteArray_append, hc] at hc'
  exact Option.some.inj hc'

theorem not_encode_prefix_nil (c : Char) : ¬String.utf8EncodeChar c <+: [] := by
  rw [List.prefix_nil]
  exact String.utf8EncodeChar_ne_nil

/-- Only at its front does an encoding have a byte with which an encoding may begin. -/
theorem not_encode_prefix_drop {c : Char} (h : bytes <+: String.utf8EncodeChar c) {n : Nat}
    (hn : 0 < n) (c' : Char) : ¬String.utf8EncodeChar c' <+: bytes.drop n := by
  intro h'
  have hpos : 0 < (String.utf8EncodeChar c').length :=
    List.length_pos_iff.2 String.utf8EncodeChar_ne_nil
  have hlen := h'.length_le
  rw [List.length_drop] at hlen
  have hlt : n < bytes.length := by omega
  have hn' : n < (String.utf8EncodeChar c).length := Nat.lt_of_lt_of_le hlt h.length_le
  have hbyte : (String.utf8EncodeChar c')[0] = (String.utf8EncodeChar c)[n] := by
    rw [h'.getElem hpos, List.getElem_drop, h.getElem (by omega)]
    rfl
  have hfirst : (String.utf8EncodeChar c')[0].IsUTF8FirstByte :=
    UInt8.isUTF8FirstByte_getElem_utf8EncodeChar.2 rfl
  rw [hbyte, UInt8.isUTF8FirstByte_getElem_utf8EncodeChar] at hfirst
  omega

theorem Begins.of_prefix {front : List UInt8} (h : Begins bytes) (hfront : front <+: bytes) :
    Begins front := by
  obtain ⟨c, hc⟩ := h
  exact ⟨c, hfront.trans hc⟩

/-! ## The start of bytes -/

theorem StartsWith.ne_nil {first : Option Char × Nat} (h : StartsWith bytes first) :
    bytes ≠ [] := by
  rintro rfl
  cases h with
  | char hc => exact not_encode_prefix_nil _ hc
  | broken hb => exact Nat.not_succ_le_zero _ (Nat.lt_of_lt_of_le hb.pos hb.le)

theorem Broken.size_le_size {size size' : Nat} (h : Broken bytes size) (h' : Broken bytes size') :
    size ≤ size' := by
  rcases h.begins with rfl | hb
  · exact h'.pos
  · exact Nat.le_of_not_lt fun hlt => h'.most hlt h.le hb

theorem StartsWith.unique {first first' : Option Char × Nat} (h : StartsWith bytes first)
    (h' : StartsWith bytes first') : first = first' := by
  cases h with
  | char hc =>
    cases h' with
    | char hc' => rw [encode_inj hc hc']
    | broken hb' => exact absurd hc (hb'.not_char _)
  | broken hb =>
    cases h' with
    | char hc' => exact absurd hc' (hb.not_char _)
    | broken hb' => rw [Nat.le_antisymm (hb.size_le_size hb') (hb'.size_le_size hb)]

theorem Broken.append {size : Nat} (h : Broken bytes size) (hlt : size < bytes.length)
    (later : List UInt8) : Broken (bytes ++ later) size := by
  have hbytes : ¬Begins bytes := by
    have hall := h.most hlt (Nat.le_refl _)
    rwa [List.take_length] at hall
  have hprefix : bytes <+: bytes ++ later := List.prefix_append bytes later
  refine ⟨?_, h.pos, Nat.le_trans h.le hprefix.length_le, ?_, ?_⟩
  · intro c hc
    rcases List.prefix_or_prefix_of_prefix hc hprefix with hfront | hfront
    · exact h.not_char c hfront
    · exact hbytes ⟨c, hfront⟩
  · rw [List.take_append_of_le_length h.le]
    exact h.begins
  · intro n hn _
    rcases Nat.le_total n bytes.length with hle | hle
    · rw [List.take_append_of_le_length hle]
      exact h.most hn hle
    · intro hb
      refine hbytes (hb.of_prefix ?_)
      refine List.prefix_of_prefix_length_le hprefix (List.take_prefix _ _) ?_
      rw [List.length_take_of_le ‹_›]
      exact hle

/-- What comes behind makes no difference to a settled start. -/
theorem StartsWith.append {first : Option Char × Nat} (h : StartsWith bytes first)
    (hd : Decided bytes first) (later : List UInt8) : StartsWith (bytes ++ later) first := by
  cases h with
  | char hc => exact .char (List.prefix_append_of_prefix hc)
  | broken hb =>
    rcases hd with hd | hd
    · cases hd
    · exact .broken (hb.append hd later)

/-- Bytes that settle nothing are three at most, and no character starts anywhere in them. -/
theorem StartsWith.undecided {first : Option Char × Nat} (h : StartsWith bytes first)
    (hd : ¬Decided bytes first) :
    bytes.length ≤ 3 ∧ ∀ n c, ¬String.utf8EncodeChar c <+: bytes.drop n := by
  cases h with
  | char hc => exact absurd (.inl rfl) hd
  | @broken size hb =>
    obtain rfl : size = bytes.length :=
      Nat.le_antisymm hb.le (Nat.le_of_not_lt fun hlt => hd (.inr hlt))
    rcases hb.begins with hone | ⟨c, hc⟩
    · refine ⟨by omega, ?_⟩
      intro n c
      cases n with
      | zero => exact hb.not_char c
      | succ n =>
        rw [List.drop_of_length_le (by omega)]
        exact not_encode_prefix_nil c
    · rw [List.take_length] at hc
      have hlt : bytes.length < (String.utf8EncodeChar c).length := by
        refine Nat.lt_of_le_of_ne hc.length_le ?_
        intro heq
        exact hb.not_char c (hc.eq_of_length heq ▸ List.prefix_rfl)
      have hfour := Char.utf8Size_le_four c
      rw [String.length_utf8EncodeChar] at hlt
      refine ⟨by omega, ?_⟩
      intro n c'
      cases n with
      | zero => exact hb.not_char c'
      | succ n => exact not_encode_prefix_drop hc (Nat.succ_pos n) c'

/-! ## All characters -/

theorem StandsFor.unique {text' : List Char} (h : StandsFor bytes text)
    (h' : StandsFor bytes text') : text = text' := by
  induction h generalizing text' with
  | nil =>
    cases h' with
    | nil => rfl
    | cons hfirst' _ => exact absurd rfl hfirst'.ne_nil
  | cons hfirst _ ih =>
    cases h' with
    | nil => exact absurd rfl hfirst.ne_nil
    | cons hfirst' htext' =>
      obtain rfl := hfirst.unique hfirst'
      rw [ih htext']

theorem standsFor_encode (text : List Char) :
    StandsFor (text.flatMap String.utf8EncodeChar) text := by
  induction text with
  | nil => exact .nil
  | cons c text ih =>
    have hfirst : StartsWith (String.utf8EncodeChar c ++ text.flatMap String.utf8EncodeChar)
        (some c, (String.utf8EncodeChar c).length) := .char (List.prefix_append _ _)
    rw [List.flatMap_cons]
    refine .cons hfirst ?_
    rw [List.drop_left]
    exact ih

namespace Decoder

variable {d : Decoder}

theorem DecodesAll.all_eq (h : d.DecodesAll) (htext : StandsFor bytes text) : d.all bytes = text :=
  (h bytes).unique htext

theorem DecodesAll.all_nil (h : d.DecodesAll) : d.all [] = [] :=
  h.all_eq .nil

theorem DecodesAll.all_encode (h : d.DecodesAll) (text : List Char) :
    d.all (text.flatMap String.utf8EncodeChar) = text :=
  h.all_eq (standsFor_encode text)

theorem TakesFirst.all_eq_cons (hfirst : d.TakesFirst) (h : d.DecodesAll) (hne : bytes ≠ []) :
    d.all bytes =
      (d.first bytes).1.getD replacement :: d.all (bytes.drop (d.first bytes).2) :=
  h.all_eq (.cons (hfirst bytes hne) (h _))

/-- Once the first character is settled, bytes that come later are decoded behind it. -/
theorem TakesFirst.all_append (hfirst : d.TakesFirst) (h : d.DecodesAll) (hne : bytes ≠ [])
    (hd : Decided bytes (d.first bytes)) (later : List UInt8) :
    d.all (bytes ++ later) =
      (d.first bytes).1.getD replacement :: d.all (bytes.drop (d.first bytes).2 ++ later) := by
  rw [← List.drop_append_of_le_length (d.size_le hne)]
  exact h.all_eq (.cons ((hfirst bytes hne).append hd later) (h _))

end Decoder

end RewindLexer.Text.Utf8
