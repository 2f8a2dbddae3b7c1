import RewindLexer.Lexer.Options
import RewindLexer.Lexer.Quotation
import RewindLexer.Lexer.Runs
import RewindLexer.Token.Builder

/-!
# Gathering a token

Each kind of token is gathered inside a recording, so that its text comes from the stream. `scan`
skips blanks and comments, looks at the next character and gathers the kind of token that starts
with it. Main statement: a token that does not end the input has consumed a character, so that
scanning token after token ends.
-/

namespace RewindLexer

open CharStream FiniteStream Text

universe u

variable {S : Type u} [FiniteStream S] {τ : Type}

/-- A name: a run of name characters. -/
def gatherName (b : TokenBuilder τ) : Scan S τ := do
  .act startRecording
  takeRun isNameChar
  let lexeme ← .ask stopRecording
  if lexeme.isEmpty then
    .fail .emptyName
  else
    return b.name (String.ofList lexeme) (String.ofList lexeme)

/-- Inside a string the end of the input means that the closing quote is missing. -/
def closing (quote : Char) : LexError → LexError
  | .endOfInput => .unterminatedQuote quote
  | e => e

/-- A string: a quote, its items, and the same quote. -/
def gatherString (b : TokenBuilder τ) (limit : Nat) : Scan S τ := do
  .act startRecording
  let quote ← (next : Scan S Char)
  if isQuote quote then
    let value ← .mapError (closing quote) (stringBody limit quote)
    let lexeme ← .ask stopRecording
    return b.string (String.ofList lexeme) (String.ofList value) quote
  else
    .fail (.missingQuote quote)

/-- An integer: one character and the digits after it. -/
def gatherInteger (b : TokenBuilder τ) : Scan S τ := do
  .act startRecording
  let _ ← (next : Scan S Char)
  .act takeDigits
  backUp
  let lexeme ← .ask stopRecording
  match Numeral.int64? lexeme with
  | some value => return b.integer (String.ofList lexeme) value
  | none => .fail (.invalidInteger (String.ofList lexeme))

/-- A separator: one character. -/
def gatherChar (b : TokenBuilder τ) : Scan S τ := do
  .act startRecording
  let _ ← (next : Scan S Char)
  let lexeme ← .ask stopRecording
  return b.char (String.ofList lexeme) (String.ofList lexeme)

/-- A symbol: one character and the signs after it. -/
def gatherSymbol (b : TokenBuilder τ) : Scan S τ := do
  .act startRecording
  let _ ← (next : Scan S Char)
  takeRun isSign
  let lexeme ← .ask stopRecording
  return b.symbol (String.ofList lexeme) (String.ofList lexeme)

/-- The token that starts with a character. -/
def gather (b : TokenBuilder τ) (o : Options) (c : Char) : Scan S τ :=
  if isAlphabetic c then gatherName b
  else if isQuote c then gatherString b o.maxEntityLength
  else if Numeral.isDigit c || c = '-' then gatherInteger b
  else if o.emitSymbols && isSeparator c then gatherChar b
  else if o.emitSymbols && (isSign c || c = '#') then gatherSymbol b
  else .fail (.noToken c)

/-- The next token. -/
def scan (b : TokenBuilder τ) (o : Options) : Scan S τ := do
  skipTrivia
  if ← .ask hasNext then
    let c ← .ask (peekD · '\x00')
    gather b o c
  else
    return b.endOfFile

/-! ## Progress -/

theorem waiting_lt_of_stop {s s' : S} (hb : Balanced (startRecording s) s')
    (hne : (stopRecording s').1 ≠ []) : waiting (stopRecording s').2 < waiting s := by
  have hlen := length_stopRecording s'
  have hstop := waiting_stopRecording s'
  have htotal := hb.total
  have hpos := List.length_pos_iff.2 hne
  rw [gauge_startRecording] at htotal
  simp only [waiting] at hstop htotal ⊢
  omega

theorem recording_startRecording (s : S) : (gauge (startRecording s)).recording = true := by
  rw [gauge_startRecording]

theorem waiting_gatherName_lt {b : TokenBuilder τ} {s s' : S} {t : τ}
    (h : gatherName b s = (.ok t, s')) : waiting s' < waiting s := by
  simp only [gatherName, Scan.bind_act] at h
  obtain ⟨_, s₁, h₁, h⟩ := Scan.bind_ok h
  have hb := balanced_takeRun isNameChar (recording_startRecording s)
  rw [h₁] at hb
  rw [Scan.bind_ask] at h
  split at h
  · simp at h
  · rename_i hne
    simp only [Scan.pure_apply, Prod.mk.injEq] at h
    rw [← h.2]
    exact waiting_lt_of_stop hb (by simpa using hne)

theorem waiting_gatherString_lt {b : TokenBuilder τ} {limit : Nat} {s s' : S} {t : τ}
    (h : gatherString b limit s = (.ok t, s')) : waiting s' < waiting s := by
  simp only [gatherString, Scan.bind_act] at h
  obtain ⟨quote, s₁, h₁, h⟩ := Scan.bind_ok h
  have hlt := waiting_next_lt h₁
  rw [waiting_startRecording] at hlt
  split at h
  · obtain ⟨value, s₂, h₂, h⟩ := Scan.bind_ok h
    have hle := waiting_stringBody_le limit quote s₁
    have hs₂ : (stringBody limit quote s₁).2 = s₂ := by
      simp only [Scan.mapError] at h₂
      split at h₂ <;> simp_all
    simp only [Scan.bind_ask, Scan.pure_apply, Prod.mk.injEq] at h
    rw [← h.2, waiting_stopRecording, ← hs₂]
    exact Nat.lt_of_le_of_lt hle hlt
  · simp at h

theorem int64?_nil : Numeral.int64? [] = none := by
  decide

theorem waiting_gatherInteger_lt {b : TokenBuilder τ} {s s' : S} {t : τ}
    (h : gatherInteger b s = (.ok t, s')) : waiting s' < waiting s := by
  simp only [gatherInteger, Scan.bind_act] at h
  obtain ⟨c, s₁, h₁, h⟩ := Scan.bind_ok h
  rw [Scan.bind_act] at h
  obtain ⟨_, s₂, h₂, h⟩ := Scan.bind_ok h
  have hb := balanced_next (recording_startRecording s)
  have hb' := balanced_takeDigits hb.recording
  have hb'' := balanced_backUp hb'.recording
  rw [h₁] at hb' hb''
  rw [h₂] at hb''
  rw [h₁] at hb
  rw [Scan.bind_ask] at h
  cases hv : Numeral.int64? (stopRecording s₂).1 with
  | none => simp [hv] at h
  | some value =>
    simp only [hv, Scan.pure_apply, Prod.mk.injEq] at h
    rw [← h.2]
    refine waiting_lt_of_stop ((hb.trans hb').trans hb'') fun hnil => ?_
    simp [hnil, int64?_nil] at hv

theorem waiting_gatherChar_lt {b : TokenBuilder τ} {s s' : S} {t : τ}
    (h : gatherChar b s = (.ok t, s')) : waiting s' < waiting s := by
  simp only [gatherChar, Scan.bind_act] at h
  obtain ⟨c, s₁, h₁, h⟩ := Scan.bind_ok h
  have hlt := waiting_next_lt h₁
  simp only [Scan.bind_ask, Scan.pure_apply, Prod.mk.injEq] at h
  rwa [← h.2, waiting_stopRecording, ← waiting_startRecording s]

theorem waiting_gatherSymbol_lt {b : TokenBuilder τ} {s s' : S} {t : τ}
    (h : gatherSymbol b s = (.ok t, s')) : waiting s' < waiting s := by
  simp only [gatherSymbol, Scan.bind_act] at h
  obtain ⟨c, s₁, h₁, h⟩ := Scan.bind_ok h
  obtain ⟨_, s₂, h₂, h⟩ := Scan.bind_ok h
  have hlt := waiting_next_lt h₁
  have hle := waiting_takeRun_le isSign s₁
  rw [h₂] at hle
  simp only [Scan.bind_ask, Scan.pure_apply, Prod.mk.injEq] at h
  rw [← h.2, waiting_stopRecording, ← waiting_startRecording s]
  exact Nat.lt_of_le_of_lt hle hlt

theorem waiting_gather_lt {b : TokenBuilder τ} {o : Options} {c : Char} {s s' : S} {t : τ}
    (h : gather b o c s = (.ok t, s')) : waiting s' < waiting s := by
  unfold gather at h
  split at h
  · exact waiting_gatherName_lt h
  split at h
  · exact waiting_gatherString_lt h
  split at h
  · exact waiting_gatherInteger_lt h
  split at h
  · exact waiting_gatherChar_lt h
  split at h
  · exact waiting_gatherSymbol_lt h
  · simp at h

/-- A token that does not end the input has consumed a character. -/
theorem waiting_scan_lt {b : TokenBuilder τ} {o : Options} {s s' : S} {t : τ}
    (h : scan b o s = (.ok t, s')) (ht : b.isEndOfFile t = false) : waiting s' < waiting s := by
  obtain ⟨_, s₁, h₁, h⟩ := Scan.bind_ok h
  have hle := waiting_skipTrivia_le s
  have hle' := waiting_hasNext_le s₁
  rw [h₁] at hle
  rw [Scan.bind_ask] at h
  split at h
  · rw [Scan.bind_ask] at h
    have hlt := waiting_gather_lt h
    exact Nat.lt_of_lt_of_le hlt
      (Nat.le_trans (waiting_peekD_le _ _) (Nat.le_trans hle' hle))
  · simp only [Scan.pure_apply, Prod.mk.injEq, Except.ok.injEq] at h
    rw [← h.1, b.isEndOfFile_endOfFile] at ht
    cases ht

end RewindLexer
