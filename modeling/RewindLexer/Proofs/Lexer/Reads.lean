import RewindLexer.Lexer.Basic
import RewindLexer.Proofs.Lexer.Tokens

/-!
# One call of a lexer

`l.Reads skipped gathered r l'` says all about one call of the lexer `l`: the blanks and comments it
has skipped, the text it has gathered after them, what it answers, and that the language gives the
same answer. Main statement: every call of a lexer on an idle tape is of this kind.
-/

namespace RewindLexer

open Text

namespace Reference

/-! ## The text of a token -/

theorem taken_append (cs rest : List Char) : taken (cs ++ rest) rest = String.ofList cs := by
  rw [taken, List.length_append, Nat.add_sub_cancel, List.take_left]

theorem taken_run (p : Char → Bool) (c : Char) (cs : List Char) :
    taken (c :: cs) (cs.dropWhile p) = String.ofList (c :: cs.takeWhile p) := by
  have he : c :: cs = (c :: cs.takeWhile p) ++ cs.dropWhile p := by
    rw [List.cons_append, List.takeWhile_append_dropWhile]
  rw [he, taken_append]

theorem lexeme_of_token {o : Options} {c : Char} {cs rest : List Char} {tok : Token}
    (h : token o c cs = (.ok tok, rest)) : tok.lexeme = taken (c :: cs) rest := by
  simp only [token, run] at h
  split at h
  · cases h
    exact (taken_run isNameChar c cs).symm
  split at h
  · split at h
    · cases h
    · cases h
      rfl
  split at h
  · split at h
    · cases h
      exact (taken_run Numeral.isDigit c cs).symm
    · cases h
  split at h
  · cases h
    exact (taken_append [c] cs).symm
  split at h
  · cases h
    exact (taken_run isSign c cs).symm
  · cases h

/-- With which character a token of each kind starts. -/
def Starts (o : Options) (c : Char) : TokenValue → Prop
  | .name _ => isAlphabetic c = true
  | .string _ quote => isQuote c = true ∧ quote = c
  | .integer _ => Numeral.isDigit c = true ∨ c = '-'
  | .char _ => o.emitSymbols = true ∧ isSeparator c = true
  | .symbol _ => o.emitSymbols = true ∧ (isSign c = true ∨ c = '#')
  | .endOfFile => False

theorem starts_of_token {o : Options} {c : Char} {cs rest : List Char} {tok : Token}
    (h : token o c cs = (.ok tok, rest)) : Starts o c tok.value := by
  simp only [token] at h
  split at h
  · rename_i hc
    cases h
    exact hc
  split at h
  · rename_i hc
    split at h
    · cases h
    · cases h
      exact ⟨hc, rfl⟩
  split at h
  · rename_i hc
    split at h
    · cases h
      simpa [Starts] using hc
    · cases h
  split at h
  · rename_i hc
    cases h
    simpa [Starts] using hc
  split at h
  · rename_i hc
    cases h
    simpa [Starts] using hc
  · cases h

theorem lexeme_of_read {o : Options} {cs rest : List Char} {tok : Token}
    (h : read o cs = (.ok tok, rest)) : tok.lexeme = taken (dropTrivia cs) rest := by
  rw [read] at h
  split at h
  · rename_i hd
    cases h
    rw [hd]
    rfl
  · rename_i c cs' hd
    rw [hd]
    exact lexeme_of_token h

theorem text_of_token {o : Options} {c : Char} {cs rest : List Char} {text : String}
    (h : token o c cs = (.error (.invalidInteger text), rest)) :
    text = taken (c :: cs) rest ∧ rest.length < (c :: cs).length := by
  simp only [token, run] at h
  split at h
  · cases h
  split at h
  · split at h
    · rename_i e rest' hq
      have hk := keepsRecord_closing hq
      rw [Except.error.inj (congrArg Prod.fst h)] at hk
      cases hk
    · cases h
  split at h
  · split at h
    · cases h
    · cases h
      refine ⟨(taken_run Numeral.isDigit c cs).symm, ?_⟩
      exact Nat.lt_succ_of_le (List.dropWhile_suffix Numeral.isDigit).length_le
  split at h
  · cases h
  split at h
  · cases h
  · cases h

theorem text_of_read {o : Options} {cs rest : List Char} {text : String}
    (h : read o cs = (.error (.invalidInteger text), rest)) :
    text = taken (dropTrivia cs) rest ∧ rest.length < (dropTrivia cs).length := by
  rw [read] at h
  split at h
  · cases h
  · rename_i c cs' hd
    rw [hd]
    exact text_of_token h

end Reference

/-! ## Locating an error -/

namespace Tape

universe u

variable {σ : Type u} [FusedSource σ Char] {t : Tape σ} {r : Except LexError Token × List Char}
  {r' : Except LexError Token × Tape σ}

theorem locate_of_idle (hi : t.Idle) (e : LexError) :
    Lexer.locate e t = (⟨e, t.position, ""⟩, t) := by
  rw [Lexer.locate, if_neg]
  · rfl
  · show ¬t.recording = true
    rw [hi.recording]
    simp

theorem Took.locate {t₁ : Tape σ} {cs : List Char} (h : t.startRecording.Took cs t₁)
    (hi : t.Idle) (e : LexError) :
    ∃ t', t.Took cs t' ∧ Lexer.locate e t₁ = (⟨e, t'.position, String.ofList cs⟩, t') := by
  obtain ⟨hl, hs⟩ := h.stop hi
  have hr : CharStream.isRecording t₁ = true := h.recording
  refine ⟨_, hs, ?_⟩
  rw [Lexer.locate, if_pos hr, ← hl]
  rfl

theorem Gathers.answer (h : t.Gathers r r') : r'.1 = r.1 := by
  cases h with
  | idle h he => exact h.answer
  | recording e he hk h => exact h.answer

theorem Gathers.agrees_of_ok {tok : Token} (h : t.Gathers r r') (hr : r.1 = .ok tok) :
    t.Agrees r r' := by
  cases h with
  | idle h he => exact h
  | recording e he hk h =>
    rw [hr] at he
    cases he

/-- An error is located with the text gathered for its token, unless that text is not recorded any
more. -/
theorem Gathers.locate {e : LexError} (h : t.Gathers r r') (hi : t.Idle) (hr : r.1 = .error e) :
    ∃ t', t.Reaches r.2 t' ∧
      Lexer.locate e r'.2 =
        (⟨e, t'.position, e.recordedText (Reference.taken t.view r.2)⟩, t') := by
  cases h with
  | idle h he =>
    refine ⟨r'.2, h.reaches, ?_⟩
    rw [locate_of_idle (h.reaches.idle hi), LexError.recordedText]
    cases hk : e.keepsRecord with
    | false => rfl
    | true =>
      have hn := Reference.taken_append [] t.view
      rw [List.nil_append] at hn
      rw [he e hr hk, if_pos rfl, hn]
  | recording e' he hk h =>
    rw [hr] at he
    cases he
    obtain ⟨cs, hc, hv⟩ := h.reaches
    obtain ⟨t', ht, hl⟩ := hc.locate hi e
    have hcs : t.view = cs ++ r.2 := by
      rw [← hv]
      exact hc.view
    refine ⟨t', ht.reaches_of_eq hcs, ?_⟩
    rw [hl, LexError.recordedText, if_pos hk, hcs, Reference.taken_append]

end Tape

/-! ## Calls -/

namespace Lexer

universe u

variable {σ : Type u} [FusedSource σ Char]

/-- What happens in one call of a lexer that makes plain tokens. -/
structure Reads (l : Lexer Token (Tape σ)) (skipped gathered : List Char)
    (r : Except LexError Token) (l' : Lexer Token (Tape σ)) : Prop where
  took : l.stream.Took (skipped ++ gathered) l'.stream
  trivia : Trivia (gathered ++ l'.stream.view) skipped
  dropTrivia_eq : Reference.dropTrivia l.stream.view = gathered ++ l'.stream.view
  read_eq : Reference.read l.options l.stream.view = (r, l'.stream.view)
  readToken_eq :
    l.readToken =
      (r.mapError fun e =>
        l.options.failure ⟨e, l'.position, e.recordedText (String.ofList gathered)⟩, l')
  builder_eq : l'.builder = l.builder
  options_eq : l'.options = l.options

variable {l : Lexer Token (Tape σ)} {t₁ t' : Tape σ} {r : Except LexError Token} {rest : List Char}

theorem reads_of_reaches (h₁ : l.stream.Reaches (Reference.dropTrivia l.stream.view) t₁)
    (h₂ : t₁.Reaches rest t') (hr : Reference.read l.options l.stream.view = (r, rest))
    (he : l.readToken =
      (r.mapError fun e =>
        l.options.failure ⟨e, t'.position, e.recordedText (Reference.taken t₁.view rest)⟩,
        { l with stream := t' })) :
    ∃ skipped gathered r l', l.Reads skipped gathered r l' := by
  obtain ⟨skipped, hs, ht⟩ := Reference.exists_trivia l.stream.view
  obtain ⟨gathered, hg, rfl⟩ := h₂
  have hd := h₁.view_eq.symm.trans hg.view
  refine ⟨skipped, gathered, r, { l with stream := t' }, ?_⟩
  constructor
  · exact (h₁.took_of_eq hs).trans hg
  · rw [← hd]
    exact ht
  · exact hd
  · exact hr
  · rw [he, hg.view, Reference.taken_append]
    rfl
  · rfl
  · rfl

theorem Reads.ok_iff {skipped gathered : List Char} {l' : Lexer Token (Tape σ)}
    (h : l.Reads skipped gathered r l') {tok : Token} : l.readToken.1 = .ok tok ↔ r = .ok tok := by
  rw [h.readToken_eq]
  cases r with
  | error e => simp [Except.mapError]
  | ok tok' => simp [Except.mapError]

theorem readToken_of_ok {tok : Token} (hb : l.builder = Token.builder)
    (h : scan Token.builder l.options l.stream = (.ok tok, t')) :
    l.readToken = (.ok tok, { l with stream := t' }) := by
  rw [readToken, hb, h]

theorem readToken_of_error {e : LexError} {located : LocatedError}
    (hb : l.builder = Token.builder)
    (h : scan Token.builder l.options l.stream = (.error e, t₁))
    (hl : locate e t₁ = (located, t')) :
    l.readToken = (.error (l.options.failure located), { l with stream := t' }) := by
  simp only [readToken, hb, h, hl]

/-- Every call on an idle tape does what the language says. -/
theorem exists_reads (hb : l.builder = Token.builder) (hi : l.stream.Idle) :
    ∃ skipped gathered r l', l.Reads skipped gathered r l' := by
  cases hscan : scan Token.builder l.options l.stream with
  | mk answer t₂ =>
    cases hv : Reference.dropTrivia l.stream.view with
    | nil =>
      have ha := Tape.scan_of_nil (o := l.options) hi hv
      rw [hscan] at ha
      obtain ⟨rfl, h₂⟩ := ha
      have hr : Reference.read l.options l.stream.view = (.ok Token.builder.endOfFile, []) := by
        rw [Reference.read, hv]
        rfl
      have h₁ : l.stream.Reaches (Reference.dropTrivia l.stream.view) t₂ := by
        rw [hv]
        exact h₂
      have h₃ := (Tape.Took.refl h₂.sound).reaches_of_eq h₂.view_eq
      exact reads_of_reaches h₁ h₃ hr (readToken_of_ok hb hscan)
    | cons c cs =>
      obtain ⟨t₁, h₁, hs⟩ := Tape.scan_of_cons (o := l.options) hi hv
      have hg := Tape.gathers_gather (o := l.options) (h₁.idle hi) h₁.view_eq
      rw [← hs, hscan] at hg
      rw [← hv] at h₁
      have ht := hg.answer
      have hr : Reference.read l.options l.stream.view =
          (answer, (Reference.token l.options c cs).2) := by
        rw [Reference.read, hv]
        exact Prod.ext ht.symm rfl
      cases answer with
      | ok tok =>
        have ha := hg.agrees_of_ok ht.symm
        exact reads_of_reaches h₁ ha.reaches hr (readToken_of_ok hb hscan)
      | error e =>
        obtain ⟨t', h₂, hl⟩ := hg.locate (h₁.idle hi) ht.symm
        exact reads_of_reaches h₁ h₂ hr (readToken_of_error hb hscan hl)

/-- Where a token starts behind blanks and comments, a call skips these and reads that token. -/
theorem exists_reads_token (hb : l.builder = Token.builder) (hi : l.stream.Idle) {c : Char}
    {cs skipped : List Char} (hv : l.stream.view = skipped ++ c :: cs)
    (hs : Trivia (c :: cs) skipped) (hbare : Reference.dropTrivia (c :: cs) = c :: cs) :
    ∃ gathered l', l.Reads skipped gathered (Reference.token l.options c cs).1 l' ∧
      l'.stream.view = (Reference.token l.options c cs).2 := by
  obtain ⟨before, gathered, r, l', h⟩ := exists_reads hb hi
  have hdrop : Reference.dropTrivia l.stream.view = c :: cs := by
    rw [hv, Reference.dropTrivia_append hs, hbare]
  have hread := h.read_eq
  rw [Reference.read, hdrop] at hread
  have hbefore : before = skipped := by
    have hview := h.took.view
    rw [hv, ← hdrop, h.dropTrivia_eq, List.append_assoc] at hview
    exact (List.append_cancel_right hview).symm
  subst hbefore
  simp only [hread]
  exact ⟨gathered, l', h, rfl⟩

end Lexer

end RewindLexer
