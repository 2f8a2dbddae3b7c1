import RewindLexer.Proofs.Lexer.Iteration

/-!
# Lexers without symbols

Whether punctuation makes tokens is asked only where no name, string or integer starts. Main
statement: the iterator of a lexer without symbols gives what it gives with them up to the first
separator or symbol; there it fails and stops.
-/

namespace RewindLexer

/-- Whether a token is a separator or a symbol. -/
def Token.isPunctuation (t : Token) : Bool :=
  match t.value with
  | .char _ | .symbol _ => true
  | _ => false

/-- The same options, but punctuation makes no tokens. -/
def Options.withoutSymbols (o : Options) : Options :=
  { o with emitSymbols := false }

theorem Token.not_isEndOfFile_of_isPunctuation {t : Token} (h : t.isPunctuation = true) :
    ¬t.isEndOfFile = true := by
  obtain ⟨lexeme, value⟩ := t
  cases value with
  | endOfFile => cases h
  | _ => nofun

/-- `r'` is the run `r` up to its first punctuation token, and then the failure to make one. -/
inductive Truncates (o : Options) : Lexer.Run Token → Lexer.Run Token → Prop where
  | stop (failure : Option Failure) : Truncates o ⟨[], failure⟩ ⟨[], failure⟩
  | token {tok : Token} {position : Nat} {r r' : Lexer.Run Token}
    (ht : tok.isPunctuation = false) (h : Truncates o r r') :
    Truncates o (r.cons (tok, position)) (r'.cons (tok, position))
  | cut {tok : Token} {position : Nat} {r : Lexer.Run Token} {c : Char} {text : List Char}
    (ht : tok.isPunctuation = true) (hc : tok.lexeme.toList = c :: text)
    (hle : tok.lexeme.length ≤ position) :
    Truncates o (r.cons (tok, position))
      ⟨[], some (o.failure ⟨.noToken c, position - tok.lexeme.length, ""⟩)⟩

/-! ## One call -/

namespace Reference

open Text

variable {o : Options} {position position' : Nat} {c : Char} {cs rest : List Char} {tok : Token}

/-- Without symbols a punctuation token becomes an error and everything else stays as it is. -/
theorem token_withoutSymbols (o : Options) (c : Char) (cs : List Char) :
    token o.withoutSymbols c cs =
      match token o c cs with
      | (.ok tok, rest) =>
        if tok.isPunctuation then (.error (.noToken c), c :: cs) else (.ok tok, rest)
      | (.error e, rest) => (.error e, rest) := by
  simp only [token, Options.withoutSymbols, Bool.false_and, Bool.false_eq_true, if_false]
  split
  · rfl
  split
  · cases quotation o.maxEntityLength c cs with
    | mk answer rest => cases answer <;> rfl
  split
  · cases Numeral.int64? (c :: (run Numeral.isDigit cs).1) <;> rfl
  · -- Only here is it asked whether punctuation makes tokens.
    cases o.emitSymbols && isSeparator c with
    | true => rfl
    | false => cases o.emitSymbols && (isSign c || c = '#') <;> rfl

theorem token_withoutSymbols_of_plain
    (h : ∀ tok, (token o c cs).1 = .ok tok → tok.isPunctuation = false) :
    token o.withoutSymbols c cs = token o c cs := by
  rw [token_withoutSymbols]
  cases ht : token o c cs with
  | mk answer rest =>
    rw [ht] at h
    cases answer with
    | error e => rfl
    | ok tok => simp [h tok rfl]

theorem token_withoutSymbols_of_punctuation (h : token o c cs = (.ok tok, rest))
    (ht : tok.isPunctuation = true) :
    token o.withoutSymbols c cs = (.error (.noToken c), c :: cs) := by
  rw [token_withoutSymbols, h]
  exact if_pos ht

/-- A call that answers no punctuation does not depend on whether it makes tokens. -/
theorem call_withoutSymbols_of_plain {r : Except Failure Token}
    (h : call o position cs = (r, position', rest))
    (hp : ∀ tok, r = .ok tok → tok.isPunctuation = false) :
    call o.withoutSymbols position cs = (r, position', rest) := by
  have hr : read o.withoutSymbols cs = read o cs := by
    simp only [call, read] at h ⊢
    cases hd : dropTrivia cs with
    | nil => rfl
    | cons c ds =>
      refine token_withoutSymbols_of_plain ?_
      intro tok ht
      simp only [hd, ht] at h
      cases h
      exact hp tok rfl
  rw [← h]
  simp only [call, hr]
  rfl

/-- A call that answers punctuation fails without symbols, at the character that the token starts
with. -/
theorem call_withoutSymbols_of_punctuation (h : call o position cs = (.ok tok, position', rest))
    (ht : tok.isPunctuation = true) :
    ∃ c text, tok.lexeme.toList = c :: text ∧ tok.lexeme.length ≤ position' ∧
      (call o.withoutSymbols position cs).1 =
        .error (o.failure ⟨.noToken c, position' - tok.lexeme.length, ""⟩) := by
  obtain ⟨skipped, text, hp, hposition⟩ :=
    exists_parted_of_call h (Token.not_isEndOfFile_of_isPunctuation ht)
  obtain ⟨c, ds, htext⟩ := List.exists_cons_of_ne_nil (hp.ne_nil ⟨tok, rfl⟩)
  have hr := hp.read_eq
  have hd := hp.dropTrivia_eq
  have hlexeme : tok.lexeme = String.ofList text := by
    rw [lexeme_of_read hr, hd, taken_append]
  have hlength : tok.lexeme.length = text.length := by
    rw [hlexeme, String.length_ofList]
  have hoff : read o.withoutSymbols cs = (.error (.noToken c), text ++ rest) := by
    rw [read, hd, htext] at hr
    rw [read, hd, htext]
    exact token_withoutSymbols_of_punctuation hr ht
  have hn : cs.length - (text ++ rest).length = skipped.length := by
    rw [hp.eq, List.length_append, Nat.add_sub_cancel]
  rw [List.length_append] at hposition
  refine ⟨c, ds, ?_, ?_, ?_⟩
  · rw [hlexeme, String.toList_ofList, htext]
  · omega
  · have hstart : position + skipped.length = position' - tok.lexeme.length := by omega
    have hnone : taken (text ++ rest) (text ++ rest) = "" := taken_append [] (text ++ rest)
    simp only [call, hoff, hn, hd, hstart, hnone]
    rfl

/-! ## Runs -/

theorem lex_of_error {e : Failure} (h : (call o position cs).1 = .error e) :
    lex o position cs = ⟨[], some e⟩ := by
  rw [lex_eq]
  cases hc : call o position cs with
  | mk answer after =>
    rw [hc] at h
    cases h
    rfl

/-- Without symbols a run is cut off at its first punctuation token. -/
theorem truncates_lex (o : Options) (position : Nat) (cs : List Char) :
    Truncates o (lex o position cs) (lex o.withoutSymbols position cs) := by
  fun_induction lex o position cs with
  | case1 position cs e position' rest h =>
    rw [lex_eq, call_withoutSymbols_of_plain h (by simp)]
    exact .stop (some e)
  | case2 position cs tok position' rest h ht =>
    have hp : tok.isPunctuation = false :=
      eq_false_of_ne_true fun hp => Token.not_isEndOfFile_of_isPunctuation hp ht
    rw [lex_eq, call_withoutSymbols_of_plain h (by rintro _ ⟨⟩; exact hp)]
    simp only [if_pos ht]
    exact .stop none
  | case3 position cs tok position' rest h ht ih =>
    cases hp : tok.isPunctuation with
    | false =>
      rw [lex_eq o.withoutSymbols, call_withoutSymbols_of_plain h (by rintro _ ⟨⟩; exact hp)]
      simp only [if_neg ht]
      exact .token hp ih
    | true =>
      obtain ⟨c, text, hc, hle, hoff⟩ := call_withoutSymbols_of_punctuation h hp
      rw [lex_of_error hoff]
      exact .cut hp hc hle

end Reference

/-! ## The iterator -/

namespace Truncates

variable {o : Options} {r r' : Lexer.Run Token}

theorem eq_of_plain (h : Truncates o r r') (hp : ∀ p ∈ r.tokens, p.1.isPunctuation = false) :
    r' = r := by
  induction h with
  | stop failure => rfl
  | @token tok position r r' ht h ih =>
    rw [ih fun p hmem => hp p (List.mem_cons_of_mem _ hmem)]
  | @cut tok position r c text ht hc hle =>
    have hf := hp _ List.mem_cons_self
    rw [ht] at hf
    cases hf

theorem eq_of_punctuation {before after : List (Token × Nat)} {tok : Token} {position : Nat}
    (h : Truncates o r r') (hr : r.tokens = before ++ (tok, position) :: after)
    (hb : ∀ p ∈ before, p.1.isPunctuation = false) (ht : tok.isPunctuation = true) :
    ∃ c text, tok.lexeme.toList = c :: text ∧ tok.lexeme.length ≤ position ∧
      r' = ⟨before, some (o.failure ⟨.noToken c, position - tok.lexeme.length, ""⟩)⟩ := by
  induction h generalizing before with
  | stop failure => simp at hr
  | @token tok' position' r r' ht' h ih =>
    cases before with
    | nil =>
      cases hr
      rw [ht] at ht'
      cases ht'
    | cons p before =>
      have hcons := List.cons.inj hr
      obtain ⟨c, text, hc, hle, rfl⟩ := ih hcons.2 fun p hmem => hb p (List.mem_cons_of_mem _ hmem)
      refine ⟨c, text, hc, hle, ?_⟩
      rw [← hcons.1]
      rfl
  | @cut tok' position' r c text ht' hc hle =>
    cases before with
    | nil =>
      cases hr
      exact ⟨c, text, hc, hle, rfl⟩
    | cons p before =>
      have hcons := List.cons.inj hr
      have hp := hb p List.mem_cons_self
      rw [← hcons.1, ht'] at hp
      cases hp

end Truncates

namespace Lexer

universe u

/-- A run that is not aborted leaves the iterator finished. -/
theorem finished_run {τ : Type} {S : Type u} [FiniteStream S] (l : Lexer τ S)
    (ho : l.options.abortOnError = false) : l.run.2.finished = true := by
  fun_induction run l with
  | case1 l l' h =>
    have hf := finished_of_next ho (.inl (congrArg Prod.fst h))
    rwa [h] at hf
  | case2 l e l' h =>
    have hf := finished_of_next ho (.inr ⟨e, congrArg Prod.fst h⟩)
    rwa [h] at hf
  | case3 l t l' h r l'' hr ih =>
    have hoptions := congrArg Lexer.options l.next_snd
    rw [h] at hoptions
    rw [show l'.options = l.options from hoptions, hr] at ih
    exact ih ho

/-- Switching symbols off only truncates what the iterator gives. If no separator or symbol is among
its tokens, it gives the same without symbols. Otherwise it gives the tokens before the first of
these, fails where that one starts and stops. -/
theorem run_without_symbols (o : Options) (text : List Char) :
    let on := plain { o with emitSymbols := true } text
    let off := plain { o with emitSymbols := false } text
    ((∀ p ∈ on.run.1.tokens, p.1.isPunctuation = false) → off.run.1 = on.run.1) ∧
      ∀ before tok position after,
        on.run.1.tokens = before ++ (tok, position) :: after →
        (∀ p ∈ before, p.1.isPunctuation = false) → tok.isPunctuation = true →
        (∃ c cs, tok.lexeme.toList = c :: cs ∧ tok.lexeme.length ≤ position ∧
          off.run.1 =
            ⟨before, some (o.failure ⟨.noToken c, position - tok.lexeme.length, ""⟩)⟩) ∧
        (o.abortOnError = false → ∀ n, off.run.2.nexts n = (List.replicate n none, off.run.2)) := by
  intro on off
  have ht := Reference.truncates_lex { o with emitSymbols := true } 0 text
  have hon : on.run.1 = Reference.lex { o with emitSymbols := true } 0 text := run_plain _ text
  have hoff : off.run.1 = Reference.lex { o with emitSymbols := false } 0 text := run_plain _ text
  rw [hon, hoff]
  refine ⟨ht.eq_of_plain, ?_⟩
  intro before tok position after hr hb hp
  refine ⟨ht.eq_of_punctuation hr hb hp, ?_⟩
  intro ho n
  exact nexts_of_finished (off.finished_run ho) n

/-- The lexer fails where the arrow starts. -/
theorem run_without_symbols_arrow :
    let on := plain { emitSymbols := true } ['a', ' ', '=', '>', 'b']
    let off := plain { emitSymbols := false } ['a', ' ', '=', '>', 'b']
    let name := plain { emitSymbols := true } ['a', ' ', '1']
    on.run.1.tokens =
        [(⟨"a", .name "a"⟩, 1), (⟨"=>", .symbol "=>"⟩, 4), (⟨"b", .name "b"⟩, 5)] ∧
      off.run.1 = ⟨[(⟨"a", .name "a"⟩, 1)], some (.reported ⟨.noToken '=', 2, ""⟩)⟩ ∧
      (∀ n, off.run.2.nexts n = (List.replicate n none, off.run.2)) ∧
      (∀ p ∈ name.run.1.tokens, p.1.isPunctuation = false) ∧
      (plain { emitSymbols := false } ['a', ' ', '1']).run.1 = name.run.1 := by
  intro on off name
  have hon : on.run.1.tokens =
      [(⟨"a", .name "a"⟩, 1), (⟨"=>", .symbol "=>"⟩, 4), (⟨"b", .name "b"⟩, 5)] := by
    decide +kernel
  have hname : ∀ p ∈ name.run.1.tokens, p.1.isPunctuation = false := by decide +kernel
  obtain ⟨⟨c, cs, hc, -, hoff⟩, hstop⟩ := (run_without_symbols {} _).2
    [(⟨"a", .name "a"⟩, 1)] ⟨"=>", .symbol "=>"⟩ 4 [(⟨"b", .name "b"⟩, 5)] hon (by decide) rfl
  obtain ⟨rfl, rfl⟩ : '=' = c ∧ ['>'] = cs := by simpa using hc
  exact ⟨hon, hoff, hstop rfl, hname, (run_without_symbols {} _).1 hname⟩

end Lexer

end RewindLexer
