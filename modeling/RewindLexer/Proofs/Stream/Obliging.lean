import RewindLexer.Lexer.Basic

/-!
# Streams that take back what they gave

A scanner puts a character back right after it has consumed it, and undoes a read right after it has
made it while recording. `Obliging S` is a property of streams that let it do so and keep it, step
by step; it says nothing about whether a stream is right about what lies ahead. Main statement: on
such a stream scanning does not fail because something cannot be put back or undone.
-/

namespace RewindLexer

open CharStream FiniteStream Text

universe u

/-! ## Kinds of failures -/

/-- Whether a failure is about the text that has been read. -/
def LexError.blamesText : LexError → Bool
  | .unterminatedQuote _ | .malformedEscape _ | .invalidNumericEscape _ | .unknownEntity _
  | .invalidInteger _ | .noToken _ => true
  | _ => false

/-- Whether a failure is about what cannot be put back or undone. -/
def LexError.blamesUndo : LexError → Bool
  | .recordingMismatch .. | .nothingToBackUp => true
  | _ => false

/-- How the inside of a string can fail: the text may also end. -/
def LexError.breaksString (e : LexError) : Prop :=
  e = .endOfInput ∨ e.blamesText = true

theorem blamesText_closing (quote : Char) {e : LexError} (h : e.breaksString) :
    (closing quote e).blamesText = true := by
  rcases h with rfl | h
  · rfl
  · cases e with
    | endOfInput => cases h
    | _ => exact h

theorem blamesText_of_decode {body : List Char} {e : LexError}
    (h : Entity.decode body = .error e) : e.blamesText = true := by
  unfold Entity.decode at h
  split at h <;> split at h
  · cases h
  · cases h
    rfl
  · cases h
  · cases h
    rfl

theorem LexError.blamesUndo_of_blamesText {e : LexError} (h : e.blamesText = true) :
    e.blamesUndo = false := by
  cases e with
  | recordingMismatch _ _ | nothingToBackUp => cases h
  | _ => rfl

/-! ## Safe steps -/

variable {S : Type u} {α β : Type} {I : S → Prop} {P Q : LexError → Prop}

/-- A step has left a stream of which `I` holds and has failed, if at all, in a way that `P`
allows. -/
inductive Safe (I : S → Prop) (P : LexError → Prop) : Except LexError α × S → Prop where
  | ok (a : α) {s : S} (h : I s) : Safe I P (.ok a, s)
  | error {e : LexError} {s : S} (h : I s) (he : P e) : Safe I P (.error e, s)

theorem Safe.mono {x : Except LexError α × S} (h : Safe I P x) (hp : ∀ e, P e → Q e) :
    Safe I Q x := by
  cases h with
  | ok a h => exact .ok a h
  | error h he => exact .error h (hp _ he)

theorem Safe.bind {x : Scan S α} {f : α → Scan S β} {s : S} (h : Safe I P (x s))
    (hf : ∀ a s', I s' → Safe I P (f a s')) : Safe I P ((x >>= f) s) := by
  cases hx : x s with
  | mk answer s' =>
    rw [hx] at h
    cases h with
    | ok a h =>
      rw [Scan.bind_eq_of_ok hx]
      exact hf a s' h
    | error h he =>
      rw [Scan.bind_eq_of_error hx]
      exact .error h he

theorem Safe.mapError {f : LexError → LexError} {x : Scan S α} {s : S} (h : Safe I P (x s))
    (hf : ∀ e, P e → Q (f e)) : Safe I Q (Scan.mapError f x s) := by
  cases hx : x s with
  | mk answer s' =>
    rw [hx] at h
    cases h with
    | ok a h =>
      rw [Scan.mapError_eq_of_ok hx]
      exact .ok a h
    | error h he =>
      rw [Scan.mapError_eq_of_error hx]
      exact .error h (hf _ he)

/-! ## Obliging streams -/

/-- Properties of streams that are kept by what a scanner does, and under which it can take back
what it has consumed last. -/
structure Obliging (S : Type u) [CharStream S] where
  rest : S → Prop
  /-- The character has just been consumed. -/
  held : Char → S → Prop
  /-- A recording goes on. -/
  taping : S → Prop
  /-- A recording goes on, and a read has just been made that may have been past the end. -/
  undoable : S → Prop
  rest_of_held {c : Char} {s : S} : held c s → rest s
  rest_of_taping {s : S} : taping s → rest s
  taping_of_undoable {s : S} : undoable s → taping s
  hasNext {s : S} : rest s → rest (CharStream.hasNext s).2
  peek {s : S} : rest s → rest (CharStream.peek s).2
  isNext {s : S} (c : Char) : rest s → rest (CharStream.isNext s c).2
  isNextList {s : S} {c : Char} (text : List Char) :
    held c s → held c (CharStream.isNextList s text).2
  held_of_next {s s₁ : S} {c : Char} : rest s → CharStream.next s = (.ok c, s₁) → held c s₁
  taping_of_next {s s₁ : S} {c : Char} : taping s → CharStream.next s = (.ok c, s₁) → taping s₁
  rest_of_next_error {s s₁ : S} {e : LexError} : rest s → CharStream.next s = (.error e, s₁) →
    e = .endOfInput ∧ rest s₁
  nextD {s : S} (c : Char) : rest s → rest (CharStream.nextD s c).2
  undoable_nextD {s : S} (c : Char) : taping s → undoable (CharStream.nextD s c).2
  unread {s : S} {c : Char} : held c s → ∃ s₁, CharStream.unread s c = (.ok (), s₁) ∧ rest s₁
  backUp {s : S} : undoable s → ∃ s₁, CharStream.backUp s = (.ok (), s₁) ∧ rest s₁
  startRecording {s : S} : rest s → taping (CharStream.startRecording s)
  stopRecording {s : S} : rest s → rest (CharStream.stopRecording s).2

namespace Obliging

variable [FiniteStream S] (A : Obliging S) {s s₁ s₂ : S} {c : Char} {e : LexError}

theorem skip (h : A.rest s) : A.rest (CharStream.skip s) :=
  A.nextD '\x00' h

/-- At the end of the input a read fails with just that. -/
theorem safe_of_next_error (h : A.rest s) (hn : CharStream.next s = (.error e, s₁))
    (hp : P .endOfInput) : Safe A.rest P ((.error e, s₁) : Except LexError α × S) := by
  obtain ⟨rfl, h₁⟩ := A.rest_of_next_error h hn
  exact .error h₁ hp

theorem rest_of_next (h : A.rest s) (hn : CharStream.next s = (.ok c, s₁)) : A.rest s₁ :=
  A.rest_of_held (A.held_of_next h hn)

/-! ## Blanks and comments -/

theorem skipLine (h : A.rest s) : A.rest (skipLine s) := by
  fun_induction RewindLexer.skipLine s with
  | case1 s e s₁ hn => exact (A.rest_of_next_error h hn).2
  | case2 s c s₁ hn hc => exact A.rest_of_next h hn
  | case3 s c s₁ hn hc ih => exact ih (A.rest_of_next h hn)

theorem skipComment (h : A.rest s) : A.rest (skipComment s) :=
  A.skipLine (A.skip (A.skip h))

theorem opensComment (h : A.held c s) : A.held c (opensComment c s).2 := by
  unfold RewindLexer.opensComment
  split
  · exact A.isNextList ['#', '#'] h
  · exact h

theorem held_of_read (h : A.rest s) {b : Bool} (hn : CharStream.hasNext s = (b, s₁))
    (hnext : CharStream.next s₁ = (.ok c, s₂)) : A.held c s₂ := by
  have h₁ := A.hasNext h
  rw [hn] at h₁
  exact A.held_of_next h₁ hnext

/-- Putting back what is held does not fail. -/
theorem safe_unread (h : A.held c s) : Safe A.rest P (CharStream.unread s c) := by
  obtain ⟨s₁, hs, h₁⟩ := A.unread h
  rw [hs]
  exact .ok () h₁

theorem skipTrivia (h : A.rest s) : Safe A.rest (· = .endOfInput) (skipTrivia s) := by
  fun_induction RewindLexer.skipTrivia s with
  | case1 s s₁ hn =>
    have h₁ := A.hasNext h
    rw [hn] at h₁
    exact .ok () h₁
  | case2 s s₁ hn e s₂ hnext =>
    have h₁ := A.hasNext h
    rw [hn] at h₁
    exact A.safe_of_next_error h₁ hnext rfl
  | case3 s s₁ hn c s₂ hnext s₃ ho ih =>
    have h₃ := A.opensComment (A.held_of_read h hn hnext)
    rw [ho] at h₃
    exact ih (A.skipComment (A.rest_of_held h₃))
  | case4 s s₁ hn c s₂ hnext s₃ ho hc ih =>
    have h₃ := A.opensComment (A.held_of_read h hn hnext)
    rw [ho] at h₃
    exact ih (A.rest_of_held h₃)
  | case5 s s₁ hn c s₂ hnext s₃ ho hc =>
    have h₃ := A.opensComment (A.held_of_read h hn hnext)
    rw [ho] at h₃
    exact A.safe_unread h₃

/-! ## Runs -/

theorem takeRun (p : Char → Bool) (h : A.rest s) : Safe A.rest (· = .endOfInput) (takeRun p s) := by
  fun_induction RewindLexer.takeRun p s with
  | case1 s s₁ hn =>
    have h₁ := A.hasNext h
    rw [hn] at h₁
    exact .ok () h₁
  | case2 s s₁ hn e s₂ hnext =>
    have h₁ := A.hasNext h
    rw [hn] at h₁
    exact A.safe_of_next_error h₁ hnext rfl
  | case3 s s₁ hn c s₂ hnext hc ih => exact ih (A.rest_of_held (A.held_of_read h hn hnext))
  | case4 s s₁ hn c s₂ hnext hc => exact A.safe_unread (A.held_of_read h hn hnext)

theorem takeDigits (h : A.taping s) : A.undoable (takeDigits s) := by
  fun_induction RewindLexer.takeDigits s with
  | case1 s c s₁ hn hc ih =>
    have h₁ := A.undoable_nextD '\x00' h
    rw [hn] at h₁
    exact ih (A.taping_of_undoable h₁)
  | case2 s c s₁ hn hc =>
    have h₁ := A.undoable_nextD '\x00' h
    rwa [hn] at h₁

/-! ## The inside of strings -/

theorem entityBody (limit : Nat) (body : List Char) (h : A.rest s) :
    Safe A.rest LexError.breaksString (entityBody limit body s) := by
  fun_induction RewindLexer.entityBody limit body s with
  | case1 body s e s₁ hn => exact A.safe_of_next_error h hn (.inl rfl)
  | case2 body s s₁ hn => exact .ok _ (A.rest_of_next h hn)
  | case3 body s c s₁ hn hc hl => exact .error (A.rest_of_next h hn) (.inr rfl)
  | case4 body s c s₁ hn hc hl ih => exact ih (A.rest_of_next h hn)

theorem readEntity (limit : Nat) (h : A.rest s) :
    Safe A.rest LexError.breaksString (readEntity limit s) := by
  refine (A.entityBody limit [] h).bind ?_
  intro body s' h'
  rw [Scan.ofExcept_apply]
  cases hd : Entity.decode body with
  | ok c => exact .ok c h'
  | error e => exact .error h' (.inr (blamesText_of_decode hd))

theorem readEscape (limit : Nat) (h : A.rest s) :
    Safe A.rest LexError.breaksString (readEscape limit s) := by
  fun_induction RewindLexer.readEscape limit s with
  | case1 s e s₁ hn => exact A.safe_of_next_error h hn (.inl rfl)
  | case2 s s₁ s₂ hi hn ih =>
    have h₂ := A.isNext '\\' (A.rest_of_next h hn)
    rw [hi] at h₂
    exact ih (A.skip h₂)
  | case3 s s₁ s₂ hi hn =>
    have h₂ := A.isNext '\\' (A.rest_of_next h hn)
    rw [hi] at h₂
    exact A.readEntity limit h₂
  | case4 s c s₁ hn hc => exact .ok _ (A.rest_of_next h hn)

theorem stringItem (limit : Nat) (c : Char) (h : A.rest s) :
    Safe A.rest LexError.breaksString (stringItem limit c s) := by
  rw [RewindLexer.stringItem]
  split
  · exact A.readEscape limit h
  · exact .ok c h

theorem stringBody (limit : Nat) (quote : Char) (h : A.rest s) :
    Safe A.rest LexError.breaksString (stringBody limit quote s) := by
  fun_induction RewindLexer.stringBody limit quote s with
  | case1 s e s₁ hn => exact A.safe_of_next_error h hn (.inl rfl)
  | case2 s s₁ hn => exact .ok _ (A.rest_of_next h hn)
  | case3 s c s₁ hn hq e s₂ hi =>
    have hs := A.stringItem limit c (A.rest_of_next h hn)
    rw [hi] at hs
    cases hs with
    | error h he => exact .error h he
  | case4 s c s₁ hn hq d s₂ hi e s₃ hb ih =>
    have hs := A.stringItem limit c (A.rest_of_next h hn)
    rw [hi] at hs
    cases hs with
    | ok d h =>
      have hrest := ih h
      rw [hb] at hrest
      cases hrest with
      | error h he => exact .error h he
  | case5 s c s₁ hn hq d s₂ hi text s₃ hb ih =>
    have hs := A.stringItem limit c (A.rest_of_next h hn)
    rw [hi] at hs
    cases hs with
    | ok d h =>
      have hrest := ih h
      rw [hb] at hrest
      cases hrest with
      | ok text h => exact .ok _ h

theorem closedString (limit : Nat) (quote : Char) (h : A.rest s) :
    Safe A.rest (·.blamesText = true)
      (Scan.mapError (closing quote) (RewindLexer.stringBody limit quote) s) :=
  (A.stringBody limit quote h).mapError fun _ => blamesText_closing quote

/-! ## Tokens -/

variable {τ : Type} (b : TokenBuilder τ)

theorem next (h : A.rest s) :
    Safe A.rest (·.blamesUndo = false) (CharStream.next s) := by
  cases hn : CharStream.next s with
  | mk answer s₁ =>
    cases answer with
    | ok c => exact .ok c (A.rest_of_next h hn)
    | error e => exact A.safe_of_next_error h hn rfl

theorem gatherName (h : A.rest s) : Safe A.rest (·.blamesUndo = false) (gatherName b s) := by
  have hrun := A.takeRun isNameChar (A.rest_of_taping (A.startRecording h))
  rw [RewindLexer.gatherName, Scan.bind_act]
  refine (hrun.mono fun e he => by rw [he]; rfl).bind ?_
  intro _ s₁ h₁
  rw [Scan.bind_ask]
  split
  · exact .error (A.stopRecording h₁) rfl
  · exact .ok _ (A.stopRecording h₁)

theorem gatherString (limit : Nat) (h : A.rest s) :
    Safe A.rest (·.blamesUndo = false) (gatherString b limit s) := by
  rw [RewindLexer.gatherString, Scan.bind_act]
  refine (A.next (A.rest_of_taping (A.startRecording h))).bind ?_
  intro quote s₁ h₁
  split
  · refine ((A.closedString limit quote h₁).mono fun _ => LexError.blamesUndo_of_blamesText).bind ?_
    intro value s₂ h₂
    exact .ok _ (A.stopRecording h₂)
  · exact .error h₁ rfl

theorem gatherInteger (h : A.rest s) : Safe A.rest (·.blamesUndo = false) (gatherInteger b s) := by
  rw [RewindLexer.gatherInteger, Scan.bind_act]
  cases hn : CharStream.next (CharStream.startRecording s) with
  | mk answer s₁ =>
    cases answer with
    | error e =>
      rw [Scan.bind_eq_of_error hn]
      exact A.safe_of_next_error (A.rest_of_taping (A.startRecording h)) hn rfl
    | ok c =>
      obtain ⟨s₂, hb, h₂⟩ := A.backUp (A.takeDigits (A.taping_of_next (A.startRecording h) hn))
      rw [Scan.bind_eq_of_ok hn, Scan.bind_act, Scan.bind_eq_of_ok hb, Scan.bind_ask]
      cases Numeral.int64? (CharStream.stopRecording s₂).1 with
      | some value => exact .ok _ (A.stopRecording h₂)
      | none => exact .error (A.stopRecording h₂) rfl

theorem gatherChar (h : A.rest s) : Safe A.rest (·.blamesUndo = false) (gatherChar b s) := by
  rw [RewindLexer.gatherChar, Scan.bind_act]
  refine (A.next (A.rest_of_taping (A.startRecording h))).bind ?_
  intro _ s₁ h₁
  exact .ok _ (A.stopRecording h₁)

theorem gatherSymbol (h : A.rest s) : Safe A.rest (·.blamesUndo = false) (gatherSymbol b s) := by
  rw [RewindLexer.gatherSymbol, Scan.bind_act]
  refine (A.next (A.rest_of_taping (A.startRecording h))).bind ?_
  intro _ s₁ h₁
  refine ((A.takeRun isSign h₁).mono fun e he => by rw [he]; rfl).bind ?_
  intro _ s₂ h₂
  exact .ok _ (A.stopRecording h₂)

theorem gather (o : Options) (c : Char) (h : A.rest s) :
    Safe A.rest (·.blamesUndo = false) (gather b o c s) := by
  rw [RewindLexer.gather]
  split
  · exact A.gatherName b h
  split
  · exact A.gatherString b o.maxEntityLength h
  split
  · exact A.gatherInteger b h
  split
  · exact A.gatherChar b h
  split
  · exact A.gatherSymbol b h
  · exact .error h rfl

theorem scan (o : Options) (h : A.rest s) : Safe A.rest (·.blamesUndo = false) (scan b o s) := by
  refine ((A.skipTrivia h).mono fun e he => by rw [he]; rfl).bind ?_
  intro _ s₁ h₁
  rw [Scan.bind_ask]
  split
  · exact A.gather b o _ (A.peek (A.hasNext h₁))
  · exact .ok _ (A.hasNext h₁)

/-! ## Call after call -/

theorem locate (h : A.rest s) (cause : LexError) :
    (Lexer.locate cause s).1.cause = cause ∧ A.rest (Lexer.locate cause s).2 := by
  rw [Lexer.locate]
  split
  · exact ⟨rfl, A.stopRecording h⟩
  · exact ⟨rfl, h⟩

/-- A call fails, if at all, in a way in which scanning fails. -/
theorem readToken {l : Lexer τ S}
    (hscan : Safe A.rest P (RewindLexer.scan l.builder l.options l.stream)) :
    A.rest l.readToken.2.stream ∧ ∀ f, l.readToken.1 = .error f →
      ∃ e : LocatedError, f = l.options.failure e ∧ P e.cause := by
  cases hs : RewindLexer.scan l.builder l.options l.stream with
  | mk answer s =>
    rw [hs] at hscan
    cases hscan with
    | ok tok h =>
      rw [Lexer.readToken, hs]
      exact ⟨h, nofun⟩
    | @error cause s h hc =>
      obtain ⟨hcause, hrest⟩ := A.locate h cause
      rw [Lexer.readToken, hs]
      refine ⟨hrest, ?_⟩
      intro f hf
      refine ⟨(Lexer.locate cause s).1, (Except.error.inj hf).symm, ?_⟩
      rw [hcause]
      exact hc

end Obliging

end RewindLexer
