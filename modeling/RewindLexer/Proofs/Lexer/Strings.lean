import RewindLexer.Lexer.Reference
import RewindLexer.Proofs.Tape.Took

/-!
# Reading the inside of strings

Each reader of `Lexer.Quotation` does on a tape what its counterpart of `Reference` does on the list
of characters in front of it. Where the counterpart looks at a whole run of characters at once, a
recursive reader on lists stands between the two.
-/

namespace RewindLexer

/-- Whether the text that was read for a token is still recorded when the error arises. The digits
of an integer are taken out of the record before they are looked at. -/
def LexError.keepsRecord : LexError → Bool
  | .invalidInteger _ => false
  | _ => true

/-- The text that an error is located with, given the text that was read for its token. -/
def LexError.recordedText (e : LexError) (text : String) : String :=
  if e.keepsRecord then text else ""

/-- Whether an error can arise inside a string. -/
def LexError.inString : LexError → Bool
  | .endOfInput | .malformedEscape _ | .invalidNumericEscape _ | .unknownEntity _ => true
  | _ => false

theorem LexError.keepsRecord_iff (e : LexError) :
    e.keepsRecord = true ↔ ∀ digits, e ≠ .invalidInteger digits := by
  cases e with
  | invalidInteger text =>
    constructor
    · intro h
      cases h
    · intro h
      exact absurd rfl (h text)
  | _ => simp [keepsRecord]

namespace Reference

/-! ## Entities -/

/-- An entity, read one character at a time after `body`, whose last character is first. -/
def entityFrom (limit : Nat) (body : List Char) :
    List Char → Except LexError (List Char) × List Char
  | [] => (.error .endOfInput, [])
  | c :: cs =>
    if c = ';' then
      (.ok body.reverse, cs)
    else if limit < (c :: body).length then
      (.error (.malformedEscape (String.ofList (c :: body).reverse)), cs)
    else
      entityFrom limit (c :: body) cs

/-- What is read one character at a time is the run up to the `;`, unless it is too long. -/
theorem entityFrom_eq {limit : Nat} {body : List Char} (hb : body.length ≤ limit)
    (cs : List Char) :
    entityFrom limit body cs =
      if limit < body.length + (cs.takeWhile (· ≠ ';')).length then
        (.error
            (.malformedEscape (String.ofList (body.reverse ++ cs.take (limit + 1 - body.length)))),
          cs.drop (limit + 1 - body.length))
      else
        match cs.drop (cs.takeWhile (· ≠ ';')).length with
        | [] => (.error .endOfInput, [])
        | _ :: rest => (.ok (body.reverse ++ cs.takeWhile (· ≠ ';')), rest) := by
  induction cs generalizing body with
  | nil => simp [entityFrom, hb]
  | cons c cs ih =>
    rw [entityFrom]
    by_cases hc : c = ';'
    · simp [hc, hb]
    · rw [if_neg hc, List.takeWhile_cons_of_pos (by simpa using hc)]
      by_cases hl : limit < (c :: body).length
      · have hlen : limit = body.length := by
          rw [List.length_cons] at hl
          omega
        subst hlen
        rw [if_pos hl, if_pos (by simp)]
        simp
      · have hb' : (c :: body).length ≤ limit := Nat.le_of_not_lt hl
        have hsub : limit + 1 - body.length = limit + 1 - (c :: body).length + 1 := by
          rw [List.length_cons] at hb' ⊢
          omega
        rw [if_neg hl, ih hb', hsub]
        simp only [List.length_cons, List.take_succ_cons, List.drop_succ_cons, List.reverse_cons,
          List.append_assoc, List.cons_append, List.nil_append]
        simp only [Nat.add_assoc, Nat.add_comm 1]

theorem entity_eq (limit : Nat) (cs : List Char) :
    entity limit cs =
      match entityFrom limit [] cs with
      | (.error e, rest) => (.error e, rest)
      | (.ok body, rest) => (Entity.decode body, rest) := by
  rw [entityFrom_eq (Nat.zero_le limit), entity]
  simp only [List.length_nil, Nat.zero_add, List.reverse_nil, List.nil_append, Nat.sub_zero]
  split
  · rfl
  · cases cs.drop (cs.takeWhile (· ≠ ';')).length with
    | nil => rfl
    | cons c rest => rfl

/-! ## Escapes and items -/

theorem escape_of_ne (limit : Nat) {c : Char} (hc : c ≠ '&') (cs : List Char) :
    escape limit (c :: cs) = (.ok (unescape c), cs) := by
  rw [escape]
  · exact fun _ h _ => hc h
  · exact hc

theorem escape_entity (limit : Nat) {cs : List Char} (hcs : cs.head? ≠ some '\\') :
    escape limit ('&' :: cs) = entity limit cs := by
  rw [escape]
  rintro cs' rfl
  exact hcs rfl

/-- One item of a string, given its first character. -/
def item (limit : Nat) (c : Char) (cs : List Char) : Except LexError Char × List Char :=
  if c = '\\' then escape limit cs else (.ok c, cs)

theorem quotation_cons (limit : Nat) (quote c : Char) (cs : List Char) :
    quotation limit quote (c :: cs) =
      if c = quote then
        (.ok [], cs)
      else
        match item limit c cs with
        | (.error e, rest) => (.error e, rest)
        | (.ok d, rest) =>
          match quotation limit quote rest with
          | (.error e, rest) => (.error e, rest)
          | (.ok text, rest) => (.ok (d :: text), rest) := by
  rw [quotation, item]
  by_cases hq : c = quote
  · rw [if_pos hq, if_pos hq]
  · by_cases hc : c = '\\'
    · cases he : escape limit cs with
      | mk answer rest =>
        cases answer with
        | error e => simp [hc]
        | ok d =>
          cases hr : quotation limit quote rest with
          | mk answer rest => cases answer <;> simp [hc, hr]
    · cases hr : quotation limit quote cs with
      | mk answer rest => cases answer <;> simp [hq, hc, hr]

theorem quotation_of_item_error {limit : Nat} {quote c : Char} {cs rest : List Char} {e : LexError}
    (hc : c ≠ quote)
    (hi : item limit c cs = (.error e, rest)) :
    quotation limit quote (c :: cs) = (.error e, rest) := by
  simp only [quotation_cons, if_neg hc, hi]

theorem quotation_of_item_ok {limit : Nat} {quote c d : Char} {cs cs' : List Char} (hc : c ≠ quote)
    (hi : item limit c cs = (.ok d, cs')) :
    quotation limit quote (c :: cs) =
      ((quotation limit quote cs').1.map (d :: ·), (quotation limit quote cs').2) := by
  simp only [quotation_cons, if_neg hc, hi]
  cases hq : quotation limit quote cs' with
  | mk answer rest => cases answer <;> rfl

/-! ## Errors -/

theorem inString_of_decode {body : List Char} {e : LexError}
    (h : Entity.decode body = .error e) : e.inString = true := by
  unfold Entity.decode at h
  split at h <;> split at h
  · cases h
  · cases h
    rfl
  · cases h
  · cases h
    rfl

theorem inString_of_entity {limit : Nat} {cs rest : List Char} {e : LexError}
    (h : entity limit cs = (.error e, rest)) : e.inString = true := by
  simp only [entity] at h
  split at h
  · cases h
    rfl
  · split at h
    · cases h
      rfl
    · exact inString_of_decode (congrArg Prod.fst h)

theorem inString_of_escape {limit : Nat} {cs rest : List Char} {e : LexError}
    (h : escape limit cs = (.error e, rest)) : e.inString = true := by
  fun_induction escape limit cs with
  | case1 =>
    cases h
    rfl
  | case2 cs ih => exact ih h
  | case3 cs _ => exact inString_of_entity h
  | case4 => cases h

theorem inString_of_quotation {limit : Nat} {quote : Char} {cs rest : List Char} {e : LexError}
    (h : quotation limit quote cs = (.error e, rest)) : e.inString = true := by
  fun_induction quotation limit quote cs generalizing rest with
  | case1 =>
    cases h
    rfl
  | case2 => cases h
  | case3 cs e' rest' he =>
    cases h
    exact inString_of_escape he
  | case4 cs d rest' _ e' rest'' hq _ ih =>
    cases h
    exact ih hq
  | case5 => cases h
  | case6 c cs _ _ e' rest' hq ih =>
    cases h
    exact ih hq
  | case7 => cases h

theorem keepsRecord_closing {limit : Nat} {quote : Char} {cs rest : List Char} {e : LexError}
    (h : quotation limit quote cs = (.error e, rest)) : (closing quote e).keepsRecord = true := by
  have hs := inString_of_quotation h
  cases e with
  | endOfInput | malformedEscape | invalidNumericEscape | unknownEntity => rfl
  | _ => cases hs

theorem closing_ne_noToken {limit : Nat} {quote c : Char} {cs rest : List Char} {e : LexError}
    (h : quotation limit quote cs = (.error e, rest)) : closing quote e ≠ .noToken c := by
  have hs := inString_of_quotation h
  cases e with
  | endOfInput | malformedEscape | invalidNumericEscape | unknownEntity =>
    intro he
    cases he
  | _ => cases hs

end Reference

/-! ## On a tape -/

namespace Tape

universe u

variable {σ : Type u} [FusedSource σ Char] {t : Tape σ}

/-- Reading a character fails at the end of the input only, and then changes nothing. -/
theorem agrees_of_next_error {α : Type} {t₁ : Tape σ} {e : LexError} (h : t.Sound)
    (hn : CharStream.next t = (.error e, t₁)) :
    t.view = [] ∧ t.Agrees (α := α) (.error .endOfInput, []) (.error e, t₁) := by
  obtain ⟨rfl, ht⟩ := took_of_next_error h hn
  have hv := view_of_next_error h hn
  exact ⟨hv, rfl, ht.reaches_of_eq hv⟩

theorem agrees_entityBody (limit : Nat) (body : List Char) (h : t.Sound) :
    t.Agrees (Reference.entityFrom limit body t.view) (entityBody limit body t) := by
  fun_induction entityBody limit body t with
  | case1 body t e t₁ hn =>
    obtain ⟨hv, ha⟩ := agrees_of_next_error h hn
    rw [hv]
    exact ha
  | case2 body t t₁ hn =>
    have ht := took_next h hn
    rw [ht.view]
    exact ⟨rfl, ht.reaches⟩
  | case3 body t c t₁ hn hc hl =>
    have ht := took_next h hn
    rw [ht.view, List.singleton_append, Reference.entityFrom, if_neg hc, if_pos hl]
    exact ⟨rfl, ht.reaches⟩
  | case4 body t c t₁ hn hc hl ih =>
    have ht := took_next h hn
    rw [ht.view, List.singleton_append, Reference.entityFrom, if_neg hc, if_neg hl]
    exact ht.trans_agrees (ih ht.sound)

theorem agrees_readEntity (limit : Nat) (h : t.Sound) :
    t.Agrees (Reference.entity limit t.view) (readEntity limit t) := by
  have ha := agrees_entityBody limit [] h
  have he := ha.eq
  rw [Reference.entity_eq]
  obtain ⟨-, hr⟩ := ha
  cases hb : Reference.entityFrom limit [] t.view with
  | mk answer rest =>
    rw [hb] at he hr
    cases answer with
    | error e =>
      rw [readEntity, Scan.bind_eq_of_error he]
      exact ⟨rfl, hr⟩
    | ok body =>
      rw [readEntity, Scan.bind_eq_of_ok he]
      exact ⟨rfl, hr⟩

theorem agrees_readEscape (limit : Nat) (h : t.Sound) :
    t.Agrees (Reference.escape limit t.view) (readEscape limit t) := by
  fun_induction readEscape limit t with
  | case1 t e t₁ hn =>
    obtain ⟨hv, ha⟩ := agrees_of_next_error h hn
    rw [hv, Reference.escape]
    exact ha
  | case2 t t₁ t₂ hi hn ih =>
    obtain ⟨ht, hh⟩ := took_isNext_of_eq (took_next h hn) hi
    obtain ⟨cs, hv⟩ := List.head?_eq_some_iff.1 (eq_of_beq hh.symm)
    have hs := took_skip ht.sound hv
    have hv' := hs.view.symm.trans hv
    rw [ht.view, hv, List.singleton_append, Reference.escape]
    have ha := (ht.trans hs).trans_agrees (ih hs.sound)
    rwa [List.append_cancel_left hv'] at ha
  | case3 t t₁ t₂ hi hn =>
    obtain ⟨ht, hh⟩ := took_isNext_of_eq (took_next h hn) hi
    rw [ht.view, List.singleton_append, Reference.escape_entity limit (ne_of_beq_false hh.symm)]
    exact ht.trans_agrees (agrees_readEntity limit ht.sound)
  | case4 t c t₁ hn hc =>
    have ht := took_next h hn
    rw [ht.view, List.singleton_append, Reference.escape_of_ne limit hc]
    exact ⟨rfl, ht.reaches⟩

theorem agrees_stringItem (limit : Nat) (c : Char) (h : t.Sound) :
    t.Agrees (Reference.item limit c t.view) (stringItem limit c t) := by
  rw [Reference.item, stringItem]
  by_cases hc : c = '\\'
  · rw [if_pos hc, if_pos hc]
    exact agrees_readEscape limit h
  · rw [if_neg hc, if_neg hc]
    exact ⟨rfl, (Took.refl h).reaches⟩

theorem took_readItem {t₁ t₂ : Tape σ} {limit : Nat} {c : Char} {answer : Except LexError Char}
    (h : t.Sound) (hn : CharStream.next t = (.ok c, t₁))
    (hi : stringItem limit c t₁ = (answer, t₂)) :
    (∃ cs, t.Took cs t₂) ∧ t.view = c :: t₁.view ∧
      Reference.item limit c t₁.view = (answer, t₂.view) := by
  have ht := took_next h hn
  have ha := agrees_stringItem limit c ht.sound
  rw [hi] at ha
  obtain ⟨cs, hc, -⟩ := ha.reaches
  exact ⟨⟨_, ht.trans hc⟩, ht.view, ha.eq_view⟩

/-- The inside of a string is read as the language says. -/
theorem agrees_stringBody (limit : Nat) (quote : Char) (h : t.Sound) :
    t.Agrees (Reference.quotation limit quote t.view) (stringBody limit quote t) := by
  fun_induction stringBody limit quote t with
  | case1 t e t₁ hn =>
    obtain ⟨hv, ha⟩ := agrees_of_next_error h hn
    rw [hv, Reference.quotation]
    exact ha
  | case2 t t₁ hn =>
    have ht := took_next h hn
    rw [ht.view, List.singleton_append, Reference.quotation_cons, if_pos rfl]
    exact ⟨rfl, ht.reaches⟩
  | case3 t c t₁ hn hq e t₂ hi =>
    obtain ⟨⟨cs, ht⟩, hv, he⟩ := took_readItem h hn hi
    rw [hv, Reference.quotation_cons, if_neg hq, he]
    exact ⟨rfl, ht.reaches⟩
  | case4 t c t₁ hn hq d t₂ hi e t₃ hb ih =>
    obtain ⟨⟨cs, ht⟩, hv, he⟩ := took_readItem h hn hi
    have ha := ih ht.sound
    rw [hb] at ha
    obtain ⟨ds, hd, -⟩ := ha.reaches
    simp only [hv, Reference.quotation_cons, if_neg hq, he, ha.eq_view]
    exact ⟨rfl, (ht.trans hd).reaches⟩
  | case5 t c t₁ hn hq d t₂ hi text t₃ hb ih =>
    obtain ⟨⟨cs, ht⟩, hv, he⟩ := took_readItem h hn hi
    have ha := ih ht.sound
    rw [hb] at ha
    obtain ⟨ds, hd, -⟩ := ha.reaches
    simp only [hv, Reference.quotation_cons, if_neg hq, he, ha.eq_view]
    exact ⟨rfl, (ht.trans hd).reaches⟩

end Tape

end RewindLexer
