import RewindLexer.Lexer.Gather
import RewindLexer.Stream.Tape

/-!
# Lexers

A lexer turns a stream of characters into tokens: one at a time, as a list up to the end of the
input, or through an iterator that stops after the end of the input or the first error.
-/

namespace RewindLexer

open CharStream FiniteStream

universe u

/-- How a lexer tells that there is no token. -/
inductive Failure where
  | reported (error : LocatedError)
  /-- The options ask for the run to end at the first error. -/
  | aborted (error : LocatedError)
  deriving DecidableEq, Repr

/-- Fails in the way that the options ask for. -/
def Options.failure (o : Options) (e : LocatedError) : Failure :=
  if o.abortOnError then .aborted e else .reported e

/-- A stream with what is needed to make tokens of it. -/
structure Lexer (τ : Type) (S : Type u) where
  builder : TokenBuilder τ
  stream : S
  options : Options := {}
  /-- Whether the iterator has met the end of the input or an error. -/
  finished : Bool := false

namespace Lexer

variable {τ : Type} {S : Type u}

/-- A lexer of a text. -/
def ofText (builder : TokenBuilder τ) (text : List Char) : Lexer τ (Tape (List Char)) where
  builder := builder
  stream := .ofSource text

/-- The number of characters consumed. -/
def position [CharStream S] (l : Lexer τ S) : Nat :=
  CharStream.position l.stream

variable [FiniteStream S]

/-- The error with the text recorded so far, and the stream with its recording ended. -/
def locate (cause : LexError) (s : S) : LocatedError × S :=
  if isRecording s then
    let (lexeme, s) := stopRecording s
    (⟨cause, CharStream.position s, String.ofList lexeme⟩, s)
  else
    (⟨cause, CharStream.position s, ""⟩, s)

/-- The next token; at the end of the input the token that ends it, again and again. -/
def readToken (l : Lexer τ S) : Except Failure τ × Lexer τ S :=
  match scan l.builder l.options l.stream with
  | (.ok t, s) => (.ok t, { l with stream := s })
  | (.error cause, s) =>
    let (e, s) := locate cause s
    (.error (l.options.failure e), { l with stream := s })

/-- The next token before the end of the input. Stops for good at the end of the input and after
an error that is reported. -/
def next (l : Lexer τ S) : Option (Except Failure τ) × Lexer τ S :=
  if l.finished then
    (none, l)
  else
    match l.readToken with
    | (.ok t, l') =>
      if l.builder.isEndOfFile t then (none, { l' with finished := true }) else (some (.ok t), l')
    | (.error (.reported e), l') => (some (.error (.reported e)), { l' with finished := true })
    | (.error (.aborted e), l') => (some (.error (.aborted e)), l')

/-! ## Progress -/

theorem readToken_ok {l l' : Lexer τ S} {t : τ} (h : l.readToken = (.ok t, l')) :
    ∃ s, scan l.builder l.options l.stream = (.ok t, s) ∧ l' = { l with stream := s } := by
  unfold readToken at h
  split at h
  · rename_i t' s hs
    simp only [Prod.mk.injEq, Except.ok.injEq] at h
    exact ⟨s, by rw [hs, h.1], h.2.symm⟩
  · simp at h

theorem waiting_readToken_lt {l l' : Lexer τ S} {t : τ} (h : l.readToken = (.ok t, l'))
    (ht : l.builder.isEndOfFile t = false) : waiting l'.stream < waiting l.stream := by
  obtain ⟨s, hs, rfl⟩ := readToken_ok h
  exact waiting_scan_lt hs ht

theorem waiting_next_lt {l l' : Lexer τ S} {t : τ} (h : l.next = (some (.ok t), l')) :
    waiting l'.stream < waiting l.stream := by
  unfold next at h
  split at h
  · simp at h
  split at h
  · rename_i t' l₁ hr
    split at h
    · simp at h
    · rename_i ht
      simp only [Prod.mk.injEq, Option.some.injEq, Except.ok.injEq] at h
      rw [← h.2]
      exact waiting_readToken_lt hr (by simpa using ht)
  · simp at h
  · simp at h

/-! ## Token after token -/

/-- The tokens before the end of the input, or the first failure. -/
def toList (l : Lexer τ S) : Except Failure (List τ) × Lexer τ S :=
  match _h : l.readToken with
  | (.error e, l') => (.error e, l')
  | (.ok t, l') =>
    if _ht : l.builder.isEndOfFile t then
      (.ok [], l')
    else
      match toList l' with
      | (.error e, l'') => (.error e, l'')
      | (.ok ts, l'') => (.ok (t :: ts), l'')
termination_by waiting l.stream
decreasing_by exact waiting_readToken_lt _h (by simpa using _ht)

/-- What an iterator gives until it stops: the tokens, each with the position after it, and the
failure that stopped it, if any. -/
structure Run (τ : Type) where
  tokens : List (τ × Nat)
  failure : Option Failure

/-- Lets the iterator run until it stops. -/
def run (l : Lexer τ S) : Run τ × Lexer τ S :=
  match _h : l.next with
  | (none, l') => (⟨[], none⟩, l')
  | (some (.error e), l') => (⟨[], some e⟩, l')
  | (some (.ok t), l') =>
    let (r, l'') := run l'
    ({ r with tokens := (t, l'.position) :: r.tokens }, l'')
termination_by waiting l.stream
decreasing_by exact waiting_next_lt ‹_›

end Lexer

end RewindLexer
