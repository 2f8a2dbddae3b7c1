import RewindLexer.Proofs.Lexer.Drivers

/-!
# Any builder

A builder has no say in what is read. Main statements: whatever builder a lexer has, its calls do
what those of a lexer do that makes plain tokens, and its tokens are built from the plain ones. If a
builder takes more tokens for the end of the input, the iterator stops at the first of them.
-/

namespace RewindLexer

open Text

universe u

variable {τ : Type} {S : Type u} {b : TokenBuilder τ}

/-- What a builder makes of a plain token. -/
def TokenBuilder.build (b : TokenBuilder τ) (tok : Token) : τ :=
  match tok.value with
  | .name value => b.name tok.lexeme value
  | .string value quote => b.string tok.lexeme value quote
  | .integer value => b.integer tok.lexeme value
  | .char value => b.char tok.lexeme value
  | .symbol value => b.symbol tok.lexeme value
  | .endOfFile => b.endOfFile

theorem TokenBuilder.build_of_isEndOfFile (b : TokenBuilder τ) {tok : Token}
    (h : tok.isEndOfFile = true) : b.build tok = b.endOfFile := by
  obtain ⟨lexeme, value⟩ := tok
  cases value with
  | endOfFile => rfl
  | _ => cases h

/-- A step does the same as another one, and a builder makes its token of the other one's. -/
def Builds (b : TokenBuilder τ) (x : Except LexError Token × S) (y : Except LexError τ × S) :
    Prop :=
  y = (x.1.map b.build, x.2)

/-! ## Steps -/

theorem Builds.bind {α : Type} {x : Scan S α} {f : α → Scan S Token} {f' : α → Scan S τ}
    (h : ∀ a s, Builds b (f a s) (f' a s)) (s : S) : Builds b ((x >>= f) s) ((x >>= f') s) := by
  cases hx : x s with
  | mk answer s₁ =>
    cases answer with
    | ok a =>
      rw [Scan.bind_eq_of_ok hx, Scan.bind_eq_of_ok hx]
      exact h a s₁
    | error e =>
      rw [Scan.bind_eq_of_error hx, Scan.bind_eq_of_error hx]
      rfl

section

variable [FiniteStream S]

theorem builds_gatherName (s : S) : Builds b (gatherName Token.builder s) (gatherName b s) := by
  simp only [gatherName, Scan.bind_act]
  refine Builds.bind ?_ _
  intro _ s
  simp only [Scan.bind_ask]
  split
  · rfl
  · rfl

theorem builds_gatherString (limit : Nat) (s : S) :
    Builds b (gatherString Token.builder limit s) (gatherString b limit s) := by
  simp only [gatherString, Scan.bind_act]
  refine Builds.bind ?_ _
  intro quote s
  split
  · refine Builds.bind ?_ s
    intro value s
    rfl
  · rfl

theorem builds_gatherInteger (s : S) :
    Builds b (gatherInteger Token.builder s) (gatherInteger b s) := by
  simp only [gatherInteger, Scan.bind_act]
  refine Builds.bind ?_ _
  intro _ s
  simp only [Scan.bind_act]
  refine Builds.bind ?_ _
  intro _ s
  simp only [Scan.bind_ask]
  cases Numeral.int64? (CharStream.stopRecording s).1 with
  | some value => rfl
  | none => rfl

theorem builds_gatherChar (s : S) : Builds b (gatherChar Token.builder s) (gatherChar b s) := by
  simp only [gatherChar, Scan.bind_act]
  refine Builds.bind ?_ _
  intro _ s
  rfl

theorem builds_gatherSymbol (s : S) :
    Builds b (gatherSymbol Token.builder s) (gatherSymbol b s) := by
  simp only [gatherSymbol, Scan.bind_act]
  refine Builds.bind ?_ _
  intro _ s
  refine Builds.bind ?_ s
  intro _ s
  rfl

theorem builds_gather (o : Options) (c : Char) (s : S) :
    Builds b (gather Token.builder o c s) (gather b o c s) := by
  unfold gather
  split
  · exact builds_gatherName s
  split
  · exact builds_gatherString o.maxEntityLength s
  split
  · exact builds_gatherInteger s
  split
  · exact builds_gatherChar s
  split
  · exact builds_gatherSymbol s
  · rfl

theorem builds_scan (o : Options) (s : S) : Builds b (scan Token.builder o s) (scan b o s) := by
  refine Builds.bind ?_ s
  intro _ s
  simp only [Scan.bind_ask]
  split
  · exact builds_gather o _ _
  · rfl

end

/-! ## Calls -/

namespace Lexer

variable [FiniteStream S]

/-- The same lexer, making plain tokens. -/
def plainly {S : Type u} (l : Lexer τ S) : Lexer Token S :=
  { l with builder := Token.builder }

theorem readToken_plainly (l : Lexer τ S) :
    l.readToken.1 = l.plainly.readToken.1.map l.builder.build ∧
      l.readToken.2.plainly = l.plainly.readToken.2 ∧ l.readToken.2.builder = l.builder := by
  have hs : scan l.builder l.options l.stream = _ := builds_scan l.options l.stream
  simp only [readToken, plainly, hs]
  cases scan Token.builder l.options l.stream with
  | mk answer s =>
    cases answer with
    | ok tok => exact ⟨rfl, rfl, rfl⟩
    | error e => exact ⟨rfl, rfl, rfl⟩

/-- Over any number of calls a builder makes its tokens of the plain ones, at the same positions. -/
theorem readTokens_plainly (l : Lexer τ S) (n : Nat) :
    (l.readTokens n).1 =
        (l.plainly.readTokens n).1.map (fun p => (p.1.map l.builder.build, p.2)) ∧
      (l.readTokens n).2.plainly = (l.plainly.readTokens n).2 ∧
      (l.readTokens n).2.builder = l.builder := by
  induction n generalizing l with
  | zero => exact ⟨rfl, rfl, rfl⟩
  | succ n ih =>
    obtain ⟨hanswer, hplain, hb⟩ := l.readToken_plainly
    obtain ⟨hs, hplain', hb'⟩ := ih l.readToken.2
    rw [hplain] at hs hplain'
    rw [hb] at hs
    have hpos : l.readToken.2.position = l.plainly.readToken.2.position := by
      rw [← hplain]
      rfl
    refine ⟨?_, ?_, hb'.trans hb⟩
    · simp only [readTokens, List.map_cons, hs, ← hanswer, hpos]
    · exact hplain'

/-! ## More ends of the input -/

/-- The same lexer, taking the given tokens for the end of the input too. -/
def endingAt {S : Type u} (l : Lexer τ S) (ends : τ → Bool) : Lexer τ S :=
  { l with builder := l.builder.endingAt ends }

/-- The run up to the first of the given tokens, at which it stops. -/
def Run.endingAt (r : Run τ) (ends : τ → Bool) : Run τ :=
  if r.tokens.any (ends ·.1) then ⟨r.tokens.takeWhile (!ends ·.1), none⟩ else r

theorem Run.endingAt_cons (p : τ × Nat) (r : Run τ) (ends : τ → Bool) :
    (r.cons p).endingAt ends = if ends p.1 then ⟨[], none⟩ else (r.endingAt ends).cons p := by
  cases hp : ends p.1 with
  | true => simp [endingAt, cons, hp]
  | false =>
    simp only [endingAt, cons, List.any_cons, hp, Bool.false_or, List.takeWhile_cons]
    split
    · rfl
    · rfl

theorem readToken_endingAt (l : Lexer τ S) (ends : τ → Bool) :
    (l.endingAt ends).readToken = (l.readToken.1, l.readToken.2.endingAt ends) := by
  have hscan : scan (l.builder.endingAt ends) l.options l.stream =
      scan l.builder l.options l.stream := rfl
  simp only [readToken, endingAt, hscan]
  cases scan l.builder l.options l.stream with
  | mk answer s =>
    cases answer with
    | ok t => rfl
    | error e => rfl

theorem next_endingAt_of_not_ends {l l₁ : Lexer τ S} {r : Option (Except Failure τ)}
    {ends : τ → Bool} (h : l.next = (r, l₁)) (hr : ∀ t, r = some (.ok t) → ends t = false) :
    (l.endingAt ends).next = (r, l₁.endingAt ends) := by
  have hends : ∀ t, (l.endingAt ends).builder.isEndOfFile t =
      (l.builder.isEndOfFile t || ends t) := fun _ => rfl
  have hfinished : (l.endingAt ends).finished = l.finished := rfl
  rw [next] at h ⊢
  rw [readToken_endingAt, hfinished]
  split at h
  · rename_i hf
    cases h
    exact if_pos hf
  · rename_i hf
    rw [if_neg hf]
    cases hread : l.readToken with
    | mk answer l₂ =>
      rw [hread] at h
      cases answer with
      | error e =>
        cases e with
        | reported e =>
          cases h
          rfl
        | aborted e =>
          cases h
          rfl
      | ok t =>
        simp only [hends] at h ⊢
        split at h
        · rename_i ht
          cases h
          rw [ht]
          rfl
        · rename_i ht
          cases h
          rw [hr t rfl, eq_false_of_ne_true ht]
          rfl

/-- A token that is an end is not given. -/
theorem next_endingAt_of_ends {l l₁ : Lexer τ S} {t : τ} {ends : τ → Bool}
    (h : l.next = (some (.ok t), l₁)) (ht : ends t = true) :
    ∃ l₂, (l.endingAt ends).next = (none, l₂) := by
  have hends : (l.endingAt ends).builder.isEndOfFile t = true := by
    simp [endingAt, TokenBuilder.endingAt, ht]
  have hfinished : (l.endingAt ends).finished = l.finished := rfl
  rw [next] at h ⊢
  rw [readToken_endingAt, hfinished]
  split at h
  · cases h
  · rename_i hf
    rw [if_neg hf]
    cases hread : l.readToken with
    | mk answer l₂ =>
      rw [hread] at h
      cases answer with
      | error e => cases e <;> cases h
      | ok t' =>
        simp only at h ⊢
        split at h
        · cases h
        · cases h
          rw [if_pos hends]
          exact ⟨_, rfl⟩

/-- Whatever other tokens end the input, the iterator gives what it gives without them, up to the
first of these tokens. -/
theorem run_endingAt (l : Lexer τ S) (ends : τ → Bool) :
    (l.endingAt ends).run.1 = l.run.1.endingAt ends := by
  fun_induction run l with
  | case1 l l' h =>
    rw [run_eq, next_endingAt_of_not_ends h nofun]
    rfl
  | case2 l e l' h =>
    rw [run_eq, next_endingAt_of_not_ends h nofun]
    rfl
  | case3 l t l' h r l'' hr ih =>
    have hcons := Run.endingAt_cons (t, l'.position) r ends
    rw [hr] at ih
    rw [run_eq]
    cases ht : ends t with
    | true =>
      obtain ⟨l₂, hnext⟩ := next_endingAt_of_ends h ht
      simp only [ht, if_true] at hcons
      rw [hnext]
      exact hcons.symm
    | false =>
      have hnext := next_endingAt_of_not_ends h (by rintro _ ⟨⟩; exact ht)
      simp only [ht, Bool.false_eq_true, if_false] at hcons
      rw [hnext]
      simp only [ih]
      exact hcons.symm

example : (((plain {} ['a', ' ', 'z', ' ', 'b']).endingAt (·.lexeme == "z")).run.1).tokens =
    [(⟨"a", .name "a"⟩, 1)] := by
  decide +kernel

end Lexer

end RewindLexer
