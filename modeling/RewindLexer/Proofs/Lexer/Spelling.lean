import RewindLexer.Proofs.Lexer.BrokenStrings
import RewindLexer.Proofs.Lexer.Locality

/-!
# How characters are spelled in strings

A character may be spelled by its code point, `\&#65;`, and every text can be written between quotes
by putting a backslash before its backslashes and quotes. Main statements: a spelling by code point
is read exactly if it is a scalar value in decimal digits, or such digits after a plus sign; and a
text that is written between quotes is read back.
-/

namespace RewindLexer

open Text

/-! ## Code points -/

namespace Entity

/-- A code point that is no surrogate. -/
def IsScalar (n : Nat) : Prop :=
  n ≤ 0x10FFFF ∧ ¬(0xD800 ≤ n ∧ n ≤ 0xDFFF)

/-- The number that is read between `&#` and `;`: a row of digits, or one after a plus sign. -/
def Code (digits : List Char) (n : Nat) : Prop :=
  Numeral.Row digits n ∨ ∃ row, digits = '+' :: row ∧ Numeral.Row row n

theorem isScalar_iff {n : Nat} : IsScalar n ↔ ∃ c : Char, n = c.toNat := by
  constructor
  · rintro ⟨hmax, hsurrogate⟩
    have hvalid : n.isValidChar := by
      simp only [Nat.isValidChar]
      omega
    refine ⟨Char.ofNat n, ?_⟩
    rw [Char.ofNat, dif_pos hvalid]
    rfl
  · rintro ⟨c, rfl⟩
    have hvalid : c.toNat.isValidChar := c.valid
    simp only [Nat.isValidChar] at hvalid
    simp only [IsScalar]
    omega

variable {digits : List Char} {c : Char} {e : LexError}

theorem decode_code_iff (hne : digits ≠ []) :
    decode ('#' :: digits) = .ok c ↔ Code digits c.toNat := by
  obtain ⟨d, ds, rfl⟩ := List.exists_cons_of_ne_nil hne
  have hlt : c.toNat < UInt32.size := c.val.toNat_lt
  rw [decode_code, Code, ← Numeral.spells_iff]
  constructor
  · rintro ⟨n, hn, -, rfl⟩
    exact hn
  · intro h
    exact ⟨c.toNat, h, hlt, rfl⟩

theorem decode_code_error (hne : digits ≠ []) (h : decode ('#' :: digits) = .error e) :
    e = .invalidNumericEscape (String.ofList ('#' :: digits)) := by
  obtain ⟨d, ds, rfl⟩ := List.exists_cons_of_ne_nil hne
  cases refused_of_decode h with
  | code => rfl
  | name hb => exact absurd rfl (hb d ds)

end Entity

namespace Literal

/-- The escape for a code point, behind `k` detours. -/
def codeEscape (k : Nat) (digits : List Char) : List Char :=
  '\\' :: (detours k ++ '&' :: ('#' :: digits ++ [';']))

/-- Behind blanks and comments a string comes next: a quote, items, and then the escape for a code
point that is not too long. -/
structure CodeNext (limit : Nat) (input skipped : List Char) (quote : Char)
    (inner value : List Char) (k : Nat) (digits tail : List Char) : Prop where
  quote_eq : quote = '"' ∨ quote = '\''
  eq : input = skipped ++ quote :: (inner ++ (codeEscape k digits ++ tail))
  trivia : Trivia (quote :: (inner ++ (codeEscape k digits ++ tail))) skipped
  items : Items limit quote inner value
  ne_nil : digits ≠ []
  not_mem : ';' ∉ digits
  length_le : 1 + digits.length ≤ limit

/-- A text as it is written between quotes. -/
def escaped (quote : Char) (text : List Char) : List Char :=
  text.flatMap fun c => if c = '\\' ∨ c = quote then ['\\', c] else [c]

theorem items_escaped (limit : Nat) {quote : Char} (hq : quote = '"' ∨ quote = '\'')
    (text : List Char) : Items limit quote (escaped quote text) text := by
  induction text with
  | nil => exact .nil
  | cons c text ih =>
    have hitem : Item limit quote (if c = '\\' ∨ c = quote then ['\\', c] else [c]) c := by
      split
      · rename_i hc
        have hself : c ≠ '&' ∧ Stands c c := by
          rcases hc with rfl | rfl
          · simp [Stands, controls]
          · rcases hq with rfl | rfl
            · simp [Stands, controls]
            · simp [Stands, controls]
        exact .escaped (.char 0 hself.1 hself.2)
      · rename_i hc
        rw [not_or] at hc
        exact .plain hc.2 hc.1
    exact .cons hitem ih

end Literal

namespace Reference

open Literal

variable {limit k : Nat} {quote c : Char} {digits tail : List Char} {e : LexError}

theorem item_code (hs : ';' ∉ digits) (hl : 1 + digits.length ≤ limit) (tail : List Char) :
    item limit '\\' (detours k ++ '&' :: ('#' :: digits ++ [';']) ++ tail) =
      (Entity.decode ('#' :: digits), tail) := by
  have hbody : ';' ∉ '#' :: digits := by simpa using hs
  have hlen : ('#' :: digits).length ≤ limit := by
    rw [List.length_cons]
    omega
  rw [item, if_pos rfl, List.append_assoc, escape_detours, List.cons_append,
    escape_entity limit (by simp), List.append_assoc, List.singleton_append,
    entity_append hbody hlen]

/-- Only the end of the input fails a string without a character of it being consumed. -/
theorem endOfInput_of_quotation {cs : List Char} (h : quotation limit quote cs = (.error e, cs)) :
    e = .endOfInput := by
  rcases quotation_settles h with ⟨text, htext, hd⟩ | ⟨he, -⟩
  · -- a reader that consumes nothing would fail in front of the closing quote as well
    have hnil : text = [] := List.append_left_eq_self.1 htext.symm
    have hclose := hd [quote]
    rw [hnil, List.nil_append, quotation_cons, if_pos rfl] at hclose
    cases hclose
  · exact Except.error.inj he

section

variable {o : Options} {cs skipped inner value : List Char}
  (h : CodeNext o.maxEntityLength cs skipped quote inner value k digits tail)
include h

theorem read_of_codeNext :
    read o cs = token o quote (inner ++ (codeEscape k digits ++ tail)) := by
  rw [read, h.eq, dropTrivia_append h.trivia, dropTrivia_quote h.quote_eq]

/-- Behind the escape for a character, the string is read on as if it began there. -/
theorem quotation_of_code (hd : Entity.decode ('#' :: digits) = .ok c) :
    quotation o.maxEntityLength quote (inner ++ (codeEscape k digits ++ tail)) =
      ((quotation o.maxEntityLength quote tail).1.map (value ++ c :: ·),
        (quotation o.maxEntityLength quote tail).2) := by
  have hquote := ne_backslash h.quote_eq
  have hitem := item_code (k := k) h.not_mem h.length_le tail
  rw [hd] at hitem
  have hcode := quotation_of_item_ok hquote.symm hitem
  rw [quotation_items hquote h.items, codeEscape, List.cons_append, hcode]
  cases (quotation o.maxEntityLength quote tail).1 with
  | error e => rfl
  | ok text => rfl

theorem read_of_code_error (hd : Entity.decode ('#' :: digits) = .error e) :
    read o cs = (.error (.invalidNumericEscape (String.ofList ('#' :: digits))), tail) := by
  have hquote := ne_backslash h.quote_eq
  have hitem := item_code (k := k) h.not_mem h.length_le tail
  rw [hd, Entity.decode_code_error h.ne_nil hd] at hitem
  have hcode := quotation_of_item_error hquote.symm hitem
  rw [read_of_codeNext h, token_of_quote o h.quote_eq, quotation_items hquote h.items, codeEscape,
    List.cons_append, hcode]
  rfl

theorem read_code_iff {after value' rest : List Char} (ht : tail = after ++ quote :: rest)
    (hi : Items o.maxEntityLength quote after value') :
    read o cs =
        (.ok ⟨String.ofList (quote :: (inner ++ (codeEscape k digits ++ (after ++ [quote])))),
          .string (String.ofList (value ++ c :: value')) quote⟩, rest) ↔
      Entity.Code digits c.toNat := by
  have hquote := ne_backslash h.quote_eq
  rw [← Entity.decode_code_iff h.ne_nil]
  cases hd : Entity.decode ('#' :: digits) with
  | error e =>
    rw [read_of_code_error h hd]
    simp
  | ok d =>
    have hq := quotation_of_code h hd
    rw [ht, quotation_of_items hquote hi] at hq
    have happ : quote :: (inner ++ (codeEscape k digits ++ (after ++ quote :: rest))) =
        quote :: (inner ++ (codeEscape k digits ++ (after ++ [quote]))) ++ rest := by
      simp
    rw [read_of_codeNext h, ht, token_of_quote o h.quote_eq, hq]
    simp only [Except.map, happ, taken_append]
    simp

theorem read_code_error_iff :
    read o cs = (.error (.invalidNumericEscape (String.ofList ('#' :: digits))), tail) ↔
      ¬∃ n, Entity.IsScalar n ∧ Entity.Code digits n := by
  constructor
  · rintro hread ⟨n, hn, hcode⟩
    obtain ⟨c, rfl⟩ := Entity.isScalar_iff.1 hn
    have hq := quotation_of_code h ((Entity.decode_code_iff h.ne_nil).2 hcode)
    rw [read_of_codeNext h, token_of_quote o h.quote_eq, hq] at hread
    cases hr : quotation o.maxEntityLength quote tail with
    | mk answer rest =>
      rw [hr] at hread
      cases answer with
      | ok text => cases hread
      | error e =>
        -- the string may still fail behind the escape, but not at once and for this cause
        obtain ⟨he, rfl⟩ := Prod.mk.inj hread
        cases endOfInput_of_quotation hr
        cases he
  · intro hnone
    cases hd : Entity.decode ('#' :: digits) with
    | error e => exact read_of_code_error h hd
    | ok c =>
      have hcode := (Entity.decode_code_iff h.ne_nil).1 hd
      exact absurd ⟨c.toNat, Entity.isScalar_iff.2 ⟨c, rfl⟩, hcode⟩ hnone

end

end Reference

namespace Lexer

/-- After any number of calls, where a string with the escape for a code point comes next, the
escape stands for the character of that code point exactly if it is spelled in decimal digits, or in
such digits after a plus sign. Exactly where it spells the code point of no character, the call
fails right behind it. -/
theorem readToken_code_iff (o : Options) (text : List Char) (n : Nat)
    {skipped inner value digits tail : List Char} {quote : Char} {k : Nat}
    (h : Literal.CodeNext o.maxEntityLength (deliver ((plain o text).readTokens n).2.stream) skipped
      quote inner value k digits tail) :
    let call := ((plain o text).readTokens n).2.readToken
    (∀ c after value' rest, tail = after ++ quote :: rest →
      Literal.Items o.maxEntityLength quote after value' →
      (call.1 = .ok
            ⟨String.ofList
                (quote :: (inner ++ (Literal.codeEscape k digits ++ (after ++ [quote])))),
              .string (String.ofList (value ++ c :: value')) quote⟩ ∧
          deliver call.2.stream = rest ↔
        Entity.Code digits c.toNat)) ∧
    ((∃ e : LocatedError, call.1 = .error (o.failure e) ∧
          e.cause = .invalidNumericEscape (String.ofList ('#' :: digits))) ∧
        deliver call.2.stream = tail ↔
      ¬∃ n, Entity.IsScalar n ∧ Entity.Code digits n) := by
  intro call
  have ho := (over_plain o text).readTokens n
  obtain ⟨before, gathered, r, l', hreads⟩ := exists_reads ho.builder_eq ho.idle
  rw [deliver_eq ho.idle.sound] at h
  constructor
  · intro c after value' rest ht hi
    rw [hreads.answer_iff, ho.options_eq, Reference.read_code_iff h ht hi]
  · rw [hreads.cause_iff ho.options_eq, Reference.read_code_error_iff h]

/-- The code of a letter behind a plus sign, which is no row of digits. -/
theorem readToken_code_iff_plus :
    let text := ['"', '\\', '&', '#', '+', '6', '5', ';', '"']
    let call := ((plain {} text).readTokens 0).2.readToken
    Literal.CodeNext 32 (deliver ((plain {} text).readTokens 0).2.stream) [] '"' [] [] 0
        ['+', '6', '5'] ['"'] ∧
      ¬Numeral.Row ['+', '6', '5'] 'A'.toNat ∧ Entity.Code ['+', '6', '5'] 'A'.toNat ∧
      (call.1 = .ok ⟨String.ofList text, .string "A" '"'⟩ ∧ deliver call.2.stream = []) ∧
      ¬((∃ e : LocatedError, call.1 = .error (.reported e) ∧
          e.cause = .invalidNumericEscape "#+65") ∧ deliver call.2.stream = ['"']) := by
  intro text call
  have h : Literal.CodeNext 32 (deliver ((plain {} text).readTokens 0).2.stream) [] '"' [] [] 0
      ['+', '6', '5'] ['"'] :=
    ⟨.inl rfl, by decide +kernel, .nil, .nil, by decide, by decide, by decide⟩
  have hrow : ¬Numeral.Row ['+', '6', '5'] 'A'.toNat := by
    rintro ⟨-, hdigits, -⟩
    have hplus := hdigits '+' List.mem_cons_self
    rw [Numeral.isDigit_plus] at hplus
    cases hplus
  have hcode : Entity.Code ['+', '6', '5'] 'A'.toNat :=
    .inr ⟨['6', '5'], rfl, by decide, List.all_eq_true.1 (by decide), by decide⟩
  obtain ⟨hread, hfail⟩ := readToken_code_iff {} text 0 h
  refine ⟨h, hrow, hcode, (hread 'A' [] [] [] rfl .nil).2 hcode, ?_⟩
  intro he
  exact hfail.1 he ⟨'A'.toNat, Entity.isScalar_iff.2 ⟨'A', rfl⟩, hcode⟩

/-- A text that is written between quotes is read back, and what comes after it is left. -/
theorem readToken_escaped (o : Options) {quote : Char} (hq : quote = '"' ∨ quote = '\'')
    (value rest : List Char) :
    let written := quote :: (Literal.escaped quote value ++ [quote])
    let call := (plain o (written ++ rest)).readToken
    call.1 = .ok ⟨String.ofList written, .string (String.ofList value) quote⟩ ∧
      deliver call.2.stream = rest := by
  intro written call
  have ho := over_plain o (written ++ rest)
  obtain ⟨before, gathered, r, l', h⟩ := exists_reads ho.builder_eq ho.idle
  have hview : (plain o (written ++ rest)).stream.view = written ++ rest := ho.view_eq
  have hread : Reference.read o (written ++ rest) =
      Reference.token o quote (Literal.escaped quote value ++ [quote] ++ rest) :=
    Reference.read_of_bare o (Reference.dropTrivia_quote hq _)
  rw [h.answer_iff, ho.options_eq, hview, hread, Reference.token_string_iff hq,
    String.toList_ofList, String.toList_ofList]
  exact ⟨rfl, _, rfl, Literal.items_escaped o.maxEntityLength hq value⟩

/-- A text of quotes, a backslash and what looks like an entity. -/
theorem readToken_escaped_entity :
    let value := ['\'', '"', '\\', '&', 'l', 't', ';', '\n']
    let written := ['"', '\'', '\\', '"', '\\', '\\', '&', 'l', 't', ';', '\n', '"']
    let call := (plain {} (written ++ ['"'])).readToken
    call.1 = .ok ⟨String.ofList written, .string (String.ofList value) '"'⟩ ∧
      deliver call.2.stream = ['"'] := by
  intro value written call
  exact readToken_escaped {} (.inl rfl) value ['"']

end Lexer

end RewindLexer
