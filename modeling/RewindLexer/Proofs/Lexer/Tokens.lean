import RewindLexer.Proofs.Lexer.Strings
import RewindLexer.Proofs.Lexer.Trivia

/-!
# Gathering tokens

On an idle tape each kind of token is gathered as `Reference.token` says. A recording is still going
on afterwards only if a string has failed; in all other cases the tape is idle again.
-/

namespace RewindLexer

open Text

namespace Tape

universe u

variable {σ : Type u} [FusedSource σ Char] {t : Tape σ}

/-! ## Runs -/

theorem takeRun_took (p : Char → Bool) (h : t.Sound) :
    ∃ t', takeRun p t = (.ok (), t') ∧ t.Took (t.view.takeWhile p) t' := by
  fun_induction takeRun p t with
  | case1 t t₁ hn =>
    obtain ⟨hv, ht⟩ := took_of_hasNext_false h hn
    rw [hv]
    exact ⟨t₁, rfl, ht⟩
  | case2 t t₁ hn e t₂ hnext => exact absurd hnext (not_next_error_of_hasNext h hn)
  | case3 t t₁ hn c t₂ hnext hc ih =>
    have ht := took_read h hn hnext
    obtain ⟨t', he, ht'⟩ := ih ht.sound
    refine ⟨t', he, ?_⟩
    rw [ht.view, List.singleton_append, List.takeWhile_cons_of_pos hc]
    exact ht.trans ht'
  | case4 t t₁ hn c t₂ hnext hc =>
    have ht : t.Took ([] ++ [c]) t₂ := took_read h hn hnext
    obtain ⟨t', he, ht'⟩ := ht.unread
    refine ⟨t', he, ?_⟩
    rw [ht.view, List.nil_append, List.singleton_append, List.takeWhile_cons_of_neg hc]
    exact ht'

/-- The digits and one character too many are consumed, or one read past the end is counted; either
is undone. -/
theorem takeDigits_took (h : t.Sound) (hr : t.recording = true) (he : t.endCount = 0) :
    ∃ t', CharStream.backUp (takeDigits t) = (.ok (), t') ∧
      t.Took (t.view.takeWhile Numeral.isDigit) t' := by
  fun_induction takeDigits t with
  | case1 t c t₁ hn hc ih =>
    rcases took_nextD h '\x00' with ⟨d, cs, hv, hd, ht⟩ | ⟨-, hd, -⟩
    · rw [hn] at hd ht
      cases hd
      obtain ⟨t', hb, ht'⟩ := ih ht.sound (ht.recording.trans hr) (ht.endCount.trans he)
      refine ⟨t', hb, ?_⟩
      rw [ht.view, List.singleton_append, List.takeWhile_cons_of_pos hc]
      exact ht.trans ht'
    · rw [hn] at hd
      have hd : c = '\x00' := hd
      rw [hd, isDigit_zero] at hc
      cases hc
  | case2 t c t₁ hn hc =>
    rcases took_nextD h '\x00' with ⟨d, cs, hv, hd, ht⟩ | ⟨hv, -, t₂, ht, he'⟩
    · rw [hn] at hd ht
      cases hd
      have ht : t.Took ([] ++ [c]) t₁ := ht
      obtain ⟨t', hb, ht'⟩ := ht.backUp hr he
      refine ⟨t', hb, ?_⟩
      rw [ht.view, List.nil_append, List.singleton_append, List.takeWhile_cons_of_neg hc]
      exact ht'
    · rw [hn] at he'
      cases he'
      rw [hv]
      exact ⟨t₂, rfl, ht⟩

/-! ## Kinds of tokens -/

section

variable {t₁ : Tape σ} {o : Options} {c : Char} {cs : List Char}

theorem Took.reaches_run {p : Char → Bool} (h : t.Took (c :: cs.takeWhile p) t₁)
    (hv : t.view = c :: cs) : t.Reaches (cs.dropWhile p) t₁ := by
  refine h.reaches_of_eq ?_
  rw [hv, List.cons_append, List.takeWhile_append_dropWhile]

/-- Consumes the first character of a token inside a new recording. -/
theorem next_startRecording (hi : t.Idle) (hv : t.view = c :: cs) :
    ∃ t₁, CharStream.next (CharStream.startRecording t) = (.ok c, t₁) ∧
      t.startRecording.Took [c] t₁ ∧ t₁.view = cs := by
  have hv' : t.startRecording.view = [c] ++ cs := hv
  obtain ⟨t₁, hn, ht⟩ := next_cons (t := t.startRecording) hi.sound hv'
  exact ⟨t₁, hn, ht, List.append_cancel_left (ht.view.symm.trans hv')⟩

theorem agrees_gatherName (hi : t.Idle) (hv : t.view = c :: cs) (hc : isAlphabetic c = true) :
    t.Agrees
      (.ok ⟨String.ofList (c :: cs.takeWhile isNameChar),
          .name (String.ofList (c :: cs.takeWhile isNameChar))⟩, cs.dropWhile isNameChar)
      (gatherName Token.builder t) := by
  obtain ⟨t₁, he, ht⟩ := takeRun_took (t := CharStream.startRecording t) isNameChar hi.sound
  have hv' : (CharStream.startRecording t).view = c :: cs := hv
  rw [hv', List.takeWhile_cons_of_pos (by simp [isNameChar, hc])] at ht
  obtain ⟨hl, hs⟩ := ht.stop hi
  rw [gatherName, Scan.bind_act, Scan.bind_eq_of_ok he, Scan.bind_ask, hl]
  exact ⟨rfl, hs.reaches_run hv⟩

theorem agrees_gatherChar (hi : t.Idle) (hv : t.view = c :: cs) :
    t.Agrees (.ok ⟨c.toString, .char c.toString⟩, cs) (gatherChar Token.builder t) := by
  obtain ⟨t₁, hn, ht, hv₁⟩ := next_startRecording hi hv
  obtain ⟨hl, hs⟩ := ht.stop hi
  rw [gatherChar, Scan.bind_act, Scan.bind_eq_of_ok hn, Scan.bind_ask, hl]
  exact ⟨rfl, hs.reaches_of_eq hv⟩

theorem agrees_gatherSymbol (hi : t.Idle) (hv : t.view = c :: cs) :
    t.Agrees
      (.ok ⟨String.ofList (c :: cs.takeWhile isSign),
          .symbol (String.ofList (c :: cs.takeWhile isSign))⟩, cs.dropWhile isSign)
      (gatherSymbol Token.builder t) := by
  obtain ⟨t₁, hn, ht, hv₁⟩ := next_startRecording hi hv
  obtain ⟨t₂, hr, ht₂⟩ := takeRun_took isSign ht.sound
  rw [hv₁] at ht₂
  obtain ⟨hl, hs⟩ := (ht.trans ht₂).stop hi
  rw [gatherSymbol, Scan.bind_act, Scan.bind_eq_of_ok hn, Scan.bind_eq_of_ok hr, Scan.bind_ask, hl]
  exact ⟨rfl, hs.reaches_run hv⟩

/-! ## The token that starts with a character -/

/-- How a token has been gathered on an idle tape, compared with reading it on a list. -/
inductive Gathers (t : Tape σ) (r : Except LexError Token × List Char)
    (r' : Except LexError Token × Tape σ) : Prop where
  /-- Nothing is recorded any more. If it should be, nothing has been consumed either. -/
  | idle (h : t.Agrees r r')
    (he : ∀ e : LexError, r.1 = .error e → e.keepsRecord = true → r.2 = t.view)
  /-- What has been consumed is still recorded. -/
  | recording (e : LexError) (he : r.1 = .error e) (hk : e.keepsRecord = true)
    (h : t.startRecording.Agrees r r')

theorem gathers_of_ok {tok : Token} {rest : List Char} {r' : Except LexError Token × Tape σ}
    (h : t.Agrees (.ok tok, rest) r') : t.Gathers (.ok tok, rest) r' := by
  refine .idle h ?_
  intro e he
  cases he

/-- A string that ends gives a token; one that does not leaves its recording going on. -/
theorem gathers_gatherString (hi : t.Idle) (hv : t.view = c :: cs) (hc : isQuote c = true) :
    t.Gathers
      (match Reference.quotation o.maxEntityLength c cs with
        | (.error e, rest) => (.error (closing c e), rest)
        | (.ok text, rest) =>
          (.ok ⟨Reference.taken (c :: cs) rest, .string (String.ofList text) c⟩, rest))
      (gatherString Token.builder o.maxEntityLength t) := by
  obtain ⟨t₁, hn, ht, hv₁⟩ := next_startRecording hi hv
  have ha := agrees_stringBody o.maxEntityLength c ht.sound
  rw [hv₁] at ha
  have he := ha.eq
  have hr := ht.trans_reaches ha.reaches
  rw [gatherString, Scan.bind_act, Scan.bind_eq_of_ok hn, if_pos hc]
  cases hq : Reference.quotation o.maxEntityLength c cs with
  | mk answer rest =>
    rw [hq] at he hr
    cases answer with
    | error e =>
      have hk := Reference.keepsRecord_closing hq
      rw [Scan.bind_eq_of_error (Scan.mapError_eq_of_error he)]
      exact .recording _ rfl hk ⟨rfl, hr⟩
    | ok text =>
      have ht' := hr.took
      rw [show t.startRecording.view = c :: cs from hv] at ht'
      obtain ⟨hl, hs⟩ := ht'.stop hi
      rw [Scan.bind_eq_of_ok (Scan.mapError_eq_of_ok he), Scan.bind_ask, hl]
      exact gathers_of_ok ⟨rfl, _, hs, hr.view_eq⟩

theorem gathers_gatherInteger (hi : t.Idle) (hv : t.view = c :: cs) :
    t.Gathers
      (match Numeral.int64? (c :: cs.takeWhile Numeral.isDigit) with
        | some value =>
          (.ok ⟨String.ofList (c :: cs.takeWhile Numeral.isDigit), .integer value⟩,
            cs.dropWhile Numeral.isDigit)
        | none =>
          (.error (.invalidInteger (String.ofList (c :: cs.takeWhile Numeral.isDigit))),
            cs.dropWhile Numeral.isDigit))
      (gatherInteger Token.builder t) := by
  obtain ⟨t₁, hn, ht, hv₁⟩ := next_startRecording hi hv
  obtain ⟨t₂, hb, ht₂⟩ := takeDigits_took ht.sound ht.recording ht.endCount
  rw [hv₁] at ht₂
  obtain ⟨hl, hs⟩ := (ht.trans ht₂).stop hi
  rw [gatherInteger, Scan.bind_act, Scan.bind_eq_of_ok hn, Scan.bind_act, Scan.bind_eq_of_ok hb,
    Scan.bind_ask, hl, List.singleton_append]
  cases Numeral.int64? (c :: cs.takeWhile Numeral.isDigit) with
  | some value => exact gathers_of_ok ⟨rfl, hs.reaches_run hv⟩
  | none =>
    -- The recording has ended, and the error is the one that does not need it.
    refine .idle ⟨rfl, hs.reaches_run hv⟩ ?_
    intro e he hk
    cases he
    cases hk

theorem gathers_gather (hi : t.Idle) (hv : t.view = c :: cs) :
    t.Gathers (Reference.token o c cs) (gather Token.builder o c t) := by
  rw [Reference.token, gather]
  split
  · exact gathers_of_ok (agrees_gatherName hi hv ‹_›)
  split
  · exact gathers_gatherString hi hv ‹_›
  split
  · exact gathers_gatherInteger hi hv
  split
  · exact gathers_of_ok (agrees_gatherChar hi hv)
  split
  · exact gathers_of_ok (agrees_gatherSymbol hi hv)
  · refine .idle ⟨rfl, (Took.refl hi.sound).reaches_of_eq hv⟩ ?_
    intro e he hk
    exact hv.symm

end

/-! ## The next token -/

theorem scan_of_nil {o : Options} (hi : t.Idle) (hv : Reference.dropTrivia t.view = []) :
    t.Agrees (.ok Token.builder.endOfFile, []) (scan Token.builder o t) := by
  have ha := agrees_skipTrivia hi.sound
  have hr := ha.reaches
  have he := hasNext_eq hr.sound
  have ht := took_hasNext hr.sound
  rw [hv] at hr
  rw [hr.view_eq] at he
  rw [scan, Scan.bind_eq_of_ok ha.eq, Scan.bind_ask, he]
  exact ⟨rfl, hr.trans (ht.reaches_of_eq hr.view_eq)⟩

/-- Before a token is gathered, blanks and comments are skipped. -/
theorem scan_of_cons {o : Options} {c : Char} {cs : List Char} (hi : t.Idle)
    (hv : Reference.dropTrivia t.view = c :: cs) :
    ∃ t₁, t.Reaches (c :: cs) t₁ ∧ scan Token.builder o t = gather Token.builder o c t₁ := by
  have ha := agrees_skipTrivia hi.sound
  have hr := ha.reaches
  have he := hasNext_eq hr.sound
  have ht := took_hasNext hr.sound
  rw [hv] at hr
  have he : (CharStream.hasNext (skipTrivia t).2).1 = true := by
    rw [he, hr.view_eq]
    rfl
  have hr₁ := hr.trans (ht.reaches_of_eq hr.view_eq)
  obtain ⟨hp, ht₁⟩ := peekD_cons hr₁.sound hr₁.view_eq '\x00'
  refine ⟨_, hr₁.trans (ht₁.reaches_of_eq hr₁.view_eq), ?_⟩
  rw [scan, Scan.bind_eq_of_ok ha.eq, Scan.bind_ask, he, if_pos rfl, Scan.bind_ask, hp]

end Tape

end RewindLexer
