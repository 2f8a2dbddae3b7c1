import RewindLexer.Proofs.Lexer.Quotations

/-!
# Strings that break off

A string fails at its first item that is not one, or where the input ends before its closing quote.
`Literal.Breaks` says which texts fail and why: a quote, items, and a bad end. As for strings that
are read, each reader has an exact statement about its failures, and the readers around it cite it.
Main statement: where a quote comes next, a lexer answers an error exactly if the text breaks off by
the grammar, and the cause tells how the text ends.
-/

namespace RewindLexer

/-! ## Entities that stand for nothing -/

namespace Entity

/-- Why an entity stands for nothing: its code is that of no character, or its name is not in the
table. A `#` alone is a name. -/
inductive Refused : List Char → LexError → Prop where
  | code {d : Char} {ds : List Char} (hc : ∀ c, ¬Denotes ('#' :: d :: ds) c) :
    Refused ('#' :: d :: ds) (.invalidNumericEscape (String.ofList ('#' :: d :: ds)))
  | name {body : List Char} (hb : ∀ d ds, body ≠ '#' :: d :: ds)
    (hc : ∀ c, (String.ofList body, c) ∉ table) :
    Refused body (.unknownEntity (String.ofList body))

variable {body : List Char} {e e' : LexError}

theorem Refused.unique (h : Refused body e) (h' : Refused body e') : e = e' := by
  cases h with
  | code =>
    cases h' with
    | code => rfl
    | name hb => exact absurd rfl (hb _ _)
  | name hb =>
    cases h' with
    | code => exact absurd rfl (hb _ _)
    | name => rfl

theorem Refused.not_denotes (h : Refused body e) (c : Char) : ¬Denotes body c := by
  cases h with
  | code hc => exact hc c
  | name hb hc =>
    intro hd
    exact hc c ((decode_name hb).1 (decode_eq_ok_iff.2 hd))

theorem refused_of_decode (h : decode body = .error e) : Refused body e := by
  have hok : ∀ c, ¬Denotes body c := by
    intro c hc
    rw [decode_eq_ok_iff.2 hc] at h
    cases h
  rw [decode.eq_def] at h
  split at h
  · split at h
    · cases h
    · cases h
      exact .code hok
  · rename_i hb
    split at h
    · cases h
    · cases h
      exact .name hb fun c hc => hok c (.name hc)

theorem decode_eq_error_iff : decode body = .error e ↔ Refused body e := by
  constructor
  · exact refused_of_decode
  · intro h
    cases hd : decode body with
    | ok c => exact absurd (decode_eq_ok_iff.1 hd) (h.not_denotes c)
    | error e' => rw [(refused_of_decode hd).unique h]

end Entity

/-! ## Texts that break off -/

namespace Literal

/-- What is consumed of an entity that fails, after its `&`; what is left; and the error. -/
inductive BadEntity (limit : Nat) : List Char → List Char → LexError → Prop where
  | unended {body : List Char} (hs : ';' ∉ body) (hl : body.length ≤ limit) :
    BadEntity limit body [] .endOfInput
  | long {body rest : List Char} (hs : ';' ∉ body) (hl : body.length = limit + 1) :
    BadEntity limit body rest (.malformedEscape (String.ofList body))
  | refused {body rest : List Char} {e : LexError} (hs : ';' ∉ body) (hl : body.length ≤ limit)
    (he : Entity.Refused body e) : BadEntity limit (body ++ [';']) rest e

/-- What is consumed of an escape that fails, after its backslash; what is left; and the error. -/
inductive BadEscape (limit : Nat) : List Char → List Char → LexError → Prop where
  | unended (k : Nat) : BadEscape limit (detours k) [] .endOfInput
  | entity (k : Nat) {text rest : List Char} {e : LexError} (hb : text.head? ≠ some '\\')
    (h : BadEntity limit text rest e) : BadEscape limit (detours k ++ '&' :: text) rest e

/-- What is consumed of a string after its items, where it fails; what is left; and the error. -/
inductive BadEnd (limit : Nat) : List Char → List Char → LexError → Prop where
  | unended : BadEnd limit [] [] .endOfInput
  | escaped {text rest : List Char} {e : LexError} (h : BadEscape limit text rest e) :
    BadEnd limit ('\\' :: text) rest e

/-- A string that fails: a quote, items and a bad end. The end of the input is an error for want of
the closing quote. -/
def Breaks (limit : Nat) (quote : Char) (text rest : List Char) (cause : LexError) : Prop :=
  ∃ inner value bad e, text = quote :: (inner ++ bad) ∧ Items limit quote inner value ∧
    BadEnd limit bad rest e ∧ cause = closing quote e

/-- How a string that fails ends, told by the cause. -/
def EndsAs (limit : Nat) (quote : Char) (text rest : List Char) : LexError → Prop
  | .unterminatedQuote q => q = quote ∧ rest = []
  | .malformedEscape body =>
    '&' :: body.toList <:+ text ∧ body.length = limit + 1 ∧ ';' ∉ body.toList
  | .invalidNumericEscape body =>
    '&' :: (body.toList ++ [';']) <:+ text ∧ body.length ≤ limit ∧ ';' ∉ body.toList ∧
      body.toList.head? = some '#' ∧ 2 ≤ body.length
  | .unknownEntity body =>
    '&' :: (body.toList ++ [';']) <:+ text ∧ body.length ≤ limit ∧ ';' ∉ body.toList ∧
      ¬(body.toList.head? = some '#' ∧ 2 ≤ body.length) ∧ ∀ c, (body, c) ∉ Entity.table
  | _ => False

variable {limit : Nat} {quote : Char} {text rest : List Char} {e cause : LexError}

/-- What follows an entity that fails is not looked at, even if nothing of it is consumed. -/
theorem BadEntity.head?_append (h : BadEntity limit text rest e) :
    (text ++ rest).head? = text.head? := by
  cases h with
  | unended => rw [List.append_nil]
  | long _ hl =>
    cases text with
    | nil => cases hl
    | cons => rfl
  | @refused body =>
    cases body with
    | nil => rfl
    | cons => rfl

theorem BadEscape.detour (h : BadEscape limit text rest e) :
    BadEscape limit ('&' :: '\\' :: text) rest e := by
  cases h with
  | unended k => exact .unended (k + 1)
  | entity k hb h => exact .entity (k + 1) hb h

theorem BadEntity.endsAs (h : BadEntity limit text rest e) :
    EndsAs limit quote ('&' :: text) rest (closing quote e) := by
  cases h with
  | unended => exact ⟨rfl, rfl⟩
  | long hs hl =>
    simp only [closing, EndsAs, String.toList_ofList, String.length_ofList]
    exact ⟨List.suffix_refl _, hl, hs⟩
  | refused hs hl he =>
    cases he with
    | code hc =>
      simp only [closing, EndsAs, String.toList_ofList, String.length_ofList]
      exact ⟨List.suffix_refl _, hl, hs, rfl, Nat.le_add_left 2 _⟩
    | name hb hc =>
      simp only [closing, EndsAs, String.toList_ofList, String.length_ofList]
      refine ⟨List.suffix_refl _, hl, hs, ?_, hc⟩
      rintro ⟨hhead, hlen⟩
      obtain ⟨digits, rfl⟩ := List.head?_eq_some_iff.1 hhead
      obtain ⟨d, ds, rfl⟩ := List.exists_cons_of_length_pos (Nat.le_of_succ_le_succ hlen)
      exact hb d ds rfl

/-- The end of a text is the end of a longer one. -/
theorem EndsAs.append (h : EndsAs limit quote text rest cause) (before : List Char) :
    EndsAs limit quote (before ++ text) rest cause := by
  have hsuffix := List.suffix_append before text
  cases cause with
  | unterminatedQuote q => exact h
  | malformedEscape body => exact ⟨h.1.trans hsuffix, h.2⟩
  | invalidNumericEscape body => exact ⟨h.1.trans hsuffix, h.2⟩
  | unknownEntity body => exact ⟨h.1.trans hsuffix, h.2⟩
  | _ => exact h.elim

theorem BadEnd.endsAs (h : BadEnd limit text rest e) :
    EndsAs limit quote text rest (closing quote e) := by
  cases h with
  | unended => exact ⟨rfl, rfl⟩
  | escaped h =>
    cases h with
    | unended k => exact ⟨rfl, rfl⟩
    | entity k hb h => exact h.endsAs.append ('\\' :: detours k)

theorem Breaks.endsAs (h : Breaks limit quote text rest cause) :
    EndsAs limit quote text rest cause := by
  obtain ⟨inner, value, bad, e, rfl, -, hbad, rfl⟩ := h
  exact hbad.endsAs.append (quote :: inner)

end Literal

namespace Reference

open Literal

variable {limit : Nat} {quote c : Char} {cs rest : List Char} {e : LexError}

/-! ## Entities and escapes -/

theorem entity_unended {body : List Char} (hs : ';' ∉ body) (hl : body.length ≤ limit) :
    entity limit body = (.error .endOfInput, []) := by
  have htake := takeWhile_append_of_not_mem hs []
  rw [List.append_nil, List.takeWhile_nil, List.append_nil] at htake
  simp only [entity, htake, if_neg (Nat.not_lt.2 hl), List.drop_length]

theorem entity_long {body : List Char} (hs : ';' ∉ body) (hl : body.length = limit + 1)
    (rest : List Char) :
    entity limit (body ++ rest) = (.error (.malformedEscape (String.ofList body)), rest) := by
  have hlt : limit < (body ++ rest.takeWhile (· ≠ ';')).length := by
    rw [List.length_append]
    omega
  simp only [entity, takeWhile_append_of_not_mem hs, if_pos hlt, ← hl, List.take_left,
    List.drop_left]

/-- A text has a part without `;`, and then it ends or the first `;` comes. -/
theorem exists_body (cs : List Char) :
    ∃ body tail, cs = body ++ tail ∧ ';' ∉ body ∧ (tail = [] ∨ ∃ rest, tail = ';' :: rest) := by
  by_cases hmem : ';' ∈ cs
  · obtain ⟨body, rest, hcs, hs⟩ := List.eq_append_cons_of_mem hmem
    exact ⟨body, ';' :: rest, hcs, hs, .inr ⟨rest, rfl⟩⟩
  · exact ⟨cs, [], (List.append_nil cs).symm, hmem, .inl rfl⟩

theorem entity_eq_error_iff :
    entity limit cs = (.error e, rest) ↔
      ∃ text, cs = text ++ rest ∧ BadEntity limit text rest e := by
  constructor
  · intro h
    obtain ⟨body, tail, rfl, hs, htail⟩ := exists_body cs
    by_cases hl : body.length ≤ limit
    · rcases htail with rfl | ⟨rest', rfl⟩
      · rw [List.append_nil, entity_unended hs hl] at h
        cases h
        exact ⟨body, rfl, .unended hs hl⟩
      · rw [entity_append hs hl] at h
        obtain ⟨hd, rfl⟩ := Prod.mk.inj h
        refine ⟨body ++ [';'], by simp, ?_⟩
        exact .refused hs hl (Entity.decode_eq_error_iff.1 hd)
    · -- the limit cuts the body, wherever its `;` may come
      have hcut : ';' ∉ body.take (limit + 1) := fun hmem => hs (List.mem_of_mem_take hmem)
      have hlen : (body.take (limit + 1)).length = limit + 1 := by
        rw [List.length_take]
        omega
      have hbody : body ++ tail = body.take (limit + 1) ++ (body.drop (limit + 1) ++ tail) := by
        rw [← List.append_assoc, List.take_append_drop]
      rw [hbody, entity_long hcut hlen] at h
      cases h
      exact ⟨body.take (limit + 1), hbody, .long hcut hlen⟩
  · rintro ⟨text, rfl, h⟩
    cases h with
    | unended hs hl => rw [List.append_nil, entity_unended hs hl]
    | long hs hl => exact entity_long hs hl rest
    | @refused body _ _ hs hl he =>
      rw [List.append_assoc, List.singleton_append, entity_append hs hl,
        Entity.decode_eq_error_iff.2 he]

theorem escape_eq_error_iff :
    escape limit cs = (.error e, rest) ↔
      ∃ text, cs = text ++ rest ∧ BadEscape limit text rest e := by
  constructor
  · intro h
    fun_induction escape limit cs with
    | case1 =>
      cases h
      exact ⟨[], rfl, .unended 0⟩
    | case2 cs ih =>
      obtain ⟨text, rfl, he⟩ := ih h
      exact ⟨'&' :: '\\' :: text, rfl, he.detour⟩
    | case3 cs hcs =>
      obtain ⟨text, rfl, he⟩ := entity_eq_error_iff.1 h
      refine ⟨'&' :: text, rfl, .entity 0 ?_ he⟩
      intro hhead
      obtain ⟨text', rfl⟩ := List.head?_eq_some_iff.1 hhead
      exact hcs _ rfl
    | case4 => cases h
  · rintro ⟨text, rfl, h⟩
    cases h with
    | unended k =>
      rw [escape_detours]
      rfl
    | @entity k text _ _ hb he =>
      have hhead : (text ++ rest).head? ≠ some '\\' := by
        rwa [he.head?_append]
      rw [List.append_assoc, escape_detours, List.cons_append, escape_entity limit hhead]
      exact entity_eq_error_iff.2 ⟨text, rfl, he⟩

/-! ## Strings -/

theorem exists_badEnd (h : quotation limit quote cs = (.error e, rest)) :
    ∃ inner value bad, cs = inner ++ bad ++ rest ∧ Items limit quote inner value ∧
      BadEnd limit bad rest e := by
  fun_induction quotation limit quote cs generalizing e rest with
  | case1 =>
    cases h
    exact ⟨[], [], [], rfl, .nil, .unended⟩
  | case2 => cases h
  | case3 cs e' rest' he hne =>
    cases h
    obtain ⟨text, rfl, hbad⟩ := escape_eq_error_iff.1 he
    exact ⟨[], [], '\\' :: text, rfl, .nil, .escaped hbad⟩
  | case4 cs d cs' he e' rest' hq hne ih =>
    cases h
    obtain ⟨inner, value, bad, rfl, hi, hbad⟩ := ih hq
    obtain ⟨esc, rfl, hesc⟩ := escape_eq_ok_iff.1 he
    exact ⟨'\\' :: esc ++ inner, d :: value, bad, by simp, .cons (.escaped hesc) hi, hbad⟩
  | case5 => cases h
  | case6 c cs hne hb e' rest' hq ih =>
    cases h
    obtain ⟨inner, value, bad, rfl, hi, hbad⟩ := ih hq
    exact ⟨[c] ++ inner, c :: value, bad, rfl, .cons (.plain hne hb) hi, hbad⟩
  | case7 => cases h

theorem quotation_of_badEnd {inner value bad : List Char} (hquote : quote ≠ '\\')
    (hi : Items limit quote inner value) (hbad : BadEnd limit bad rest e) :
    quotation limit quote (inner ++ bad ++ rest) = (.error e, rest) := by
  have hend : quotation limit quote (bad ++ rest) = (.error e, rest) := by
    cases hbad with
    | unended => rw [List.append_nil, quotation]
    | @escaped text _ _ h =>
      have hesc : escape limit (text ++ rest) = (.error e, rest) :=
        escape_eq_error_iff.2 ⟨text, rfl, h⟩
      exact quotation_of_item_error hquote.symm ((if_pos rfl).trans hesc)
  rw [List.append_assoc, quotation_items hquote hi, hend]
  rfl

theorem token_breaks_iff {o : Options} (hq : quote = '"' ∨ quote = '\'') {cause : LexError} :
    token o quote cs = (.error cause, rest) ↔
      ∃ text, quote :: cs = text ++ rest ∧ Breaks o.maxEntityLength quote text rest cause := by
  have hquote := ne_backslash hq
  rw [token_of_quote o hq]
  constructor
  · intro h
    cases hr : quotation o.maxEntityLength quote cs with
    | mk answer rest' =>
      rw [hr] at h
      cases answer with
      | ok value => cases h
      | error e =>
        cases h
        obtain ⟨inner, value, bad, rfl, hi, hbad⟩ := exists_badEnd hr
        exact ⟨quote :: (inner ++ bad), rfl, inner, value, bad, e, rfl, hi, hbad, rfl⟩
  · rintro ⟨text, happ, inner, value, bad, e, rfl, hi, hbad, rfl⟩
    have hcs : cs = inner ++ bad ++ rest := (List.cons.inj happ).2
    rw [hcs, quotation_of_badEnd hquote hi hbad]

theorem recordedText_of_breaks {text : List Char} {cause : LexError}
    (h : Breaks limit quote text rest cause) (gathered : String) :
    cause.recordedText gathered = gathered := by
  have he := h.endsAs
  cases cause with
  | invalidInteger digits => exact he.elim
  | _ => rfl

end Reference

namespace Lexer

section

universe u

variable {σ : Type u} [FusedSource σ Char] {l l' : Lexer Token (Tape σ)}
  {skipped gathered : List Char} {r : Except LexError Token}

/-- Where a quote comes next, a call fails exactly if the text breaks off by the grammar. -/
theorem Reads.breaks_iff {before cs : List Char} {quote : Char} (h : l.Reads before gathered r l')
    (hq : quote = '"' ∨ quote = '\'') (hs : Trivia (quote :: cs) skipped)
    (hv : l.stream.view = skipped ++ quote :: cs) {failure : Failure} {rest : List Char} :
    l.readToken.1 = .error failure ∧ deliver l.readToken.2.stream = rest ↔
      ∃ e : LocatedError, failure = l.options.failure e ∧ quote :: cs = e.lexeme.toList ++ rest ∧
        e.position = l.position + (skipped ++ e.lexeme.toList).length ∧
        Literal.Breaks l.options.maxEntityLength quote e.lexeme.toList rest e.cause := by
  have hdrop : Reference.dropTrivia l.stream.view = quote :: cs := by
    rw [hv, Reference.dropTrivia_append hs, Reference.dropTrivia_quote hq]
  have hread : Reference.read l.options l.stream.view = Reference.token l.options quote cs := by
    rw [Reference.read, hdrop]
  have hgathered : quote :: cs = gathered ++ l'.stream.view := hdrop.symm.trans h.dropTrivia_eq
  have hbefore : before = skipped := by
    have hview := h.took.view
    rw [hv, hgathered, List.append_assoc] at hview
    exact (List.append_cancel_right hview).symm
  have hrest : ∀ {cause}, Reference.token l.options quote cs = (.error cause, rest) →
      l'.stream.view = rest := by
    intro cause htok
    rw [← hread, h.read_eq] at htok
    exact congrArg Prod.snd htok
  rw [h.failure_iff, hread]
  constructor
  · rintro ⟨cause, htok, rfl⟩
    obtain ⟨text, happ, hb⟩ := (Reference.token_breaks_iff hq).1 htok
    have htext : gathered = text := by
      rw [hgathered, hrest htok] at happ
      exact List.append_cancel_right happ
    subst htext
    rw [Reference.recordedText_of_breaks hb]
    refine ⟨_, rfl, ?_, ?_, ?_⟩
    · rw [String.toList_ofList]
      exact happ
    · rw [String.toList_ofList, h.position_eq, hbefore]
    · rw [String.toList_ofList]
      exact hb
  · rintro ⟨⟨cause, position, lexeme⟩, rfl, happ, hpos, hb⟩
    have htok := (Reference.token_breaks_iff hq).2 ⟨_, happ, hb⟩
    have hlexeme : gathered = lexeme.toList := by
      rw [hgathered, hrest htok] at happ
      exact List.append_cancel_right happ
    refine ⟨cause, htok, ?_⟩
    rw [Reference.recordedText_of_breaks hb, hlexeme, String.ofList_toList, h.position_eq, hbefore,
      hlexeme, ← hpos]

end

/-- After any number of calls, where a quote comes next behind blanks and comments, the next call
fails exactly if the text breaks off by the grammar; the error has the cause, the text from the
quote on and the position after it, and the cause tells how this text ends. -/
theorem readToken_breaks_iff (o : Options) (text : List Char) (n : Nat) {skipped cs : List Char}
    {quote : Char} (hq : quote = '"' ∨ quote = '\'') (hs : Trivia (quote :: cs) skipped)
    (hd : deliver ((plain o text).readTokens n).2.stream = skipped ++ quote :: cs)
    (failure : Failure) (rest : List Char) :
    let l := ((plain o text).readTokens n).2
    let call := l.readToken
    (call.1 = .error failure ∧ deliver call.2.stream = rest ↔
      ∃ e : LocatedError, failure = o.failure e ∧ quote :: cs = e.lexeme.toList ++ rest ∧
        e.position = l.position + (skipped ++ e.lexeme.toList).length ∧
        Literal.Breaks o.maxEntityLength quote e.lexeme.toList rest e.cause) ∧
      ∀ e : LocatedError, call.1 = .error (o.failure e) →
        Literal.EndsAs o.maxEntityLength quote e.lexeme.toList (deliver call.2.stream) e.cause := by
  intro l call
  have ho : l.Over o text := (over_plain o text).readTokens n
  obtain ⟨before, gathered, r, l', h⟩ := exists_reads ho.builder_eq ho.idle
  rw [deliver_eq ho.idle.sound] at hd
  have hiff : ∀ {failure rest}, call.1 = .error failure ∧ deliver call.2.stream = rest ↔
      ∃ e : LocatedError, failure = o.failure e ∧ quote :: cs = e.lexeme.toList ++ rest ∧
        e.position = l.position + (skipped ++ e.lexeme.toList).length ∧
        Literal.Breaks o.maxEntityLength quote e.lexeme.toList rest e.cause := by
    intro failure rest
    rw [h.breaks_iff hq hs hd, ho.options_eq]
  refine ⟨hiff, ?_⟩
  intro e he
  obtain ⟨e', hfail, -, -, hb⟩ := hiff.1 ⟨he, rfl⟩
  cases failure_inj hfail
  exact hb.endsAs

/-- A blank, then a string with an escape and, behind a detour, a code that is no number. -/
theorem readToken_breaks_iff_code :
    let cs := ['a', '\\', 'n', '\\', '&', '\\', '&', '#', 'x', ';', 'b']
    let call := ((plain {} (' ' :: '\'' :: cs)).readTokens 0).2.readToken
    let e : LocatedError := ⟨.invalidNumericEscape "#x", 12, "'a\\n\\&\\&#x;"⟩
    Trivia ('\'' :: cs) [' '] ∧
      deliver ((plain {} (' ' :: '\'' :: cs)).readTokens 0).2.stream = [' '] ++ '\'' :: cs ∧
      (call.1 = .error (.reported e) ∧ deliver call.2.stream = ['b']) ∧
      Literal.Breaks 32 '\'' e.lexeme.toList ['b'] e.cause ∧
      Literal.EndsAs 32 '\'' e.lexeme.toList ['b'] e.cause := by
  intro cs call e
  have hs : Trivia ('\'' :: cs) [' '] := .blank (by decide) .nil
  have hd : deliver ((plain {} (' ' :: '\'' :: cs)).readTokens 0).2.stream =
      [' '] ++ '\'' :: cs := by
    decide +kernel
  have hcall : call.1 = .error (.reported e) ∧ deliver call.2.stream = ['b'] := by
    decide +kernel
  obtain ⟨hiff, hends⟩ := readToken_breaks_iff {} (' ' :: '\'' :: cs) 0 (.inr rfl) hs hd
    (.reported e) ['b']
  obtain ⟨e', hfail, -, -, hb⟩ := hiff.1 hcall
  have hbreaks : Literal.Breaks 32 '\'' e.lexeme.toList ['b'] e.cause := by
    cases hfail
    exact hb
  have hend := hends e hcall.1
  rw [hcall.2] at hend
  exact ⟨hs, hd, hcall, hbreaks, hend⟩

end Lexer

end RewindLexer
