import RewindLexer.Proofs.Lexer.Reads

/-!
# Call after call

What a lexer does over any number of calls, those after an error and after the end of the input
included. Main statement: the calls of a lexer answer what the language says about the text that is
left, at the same positions.
-/

namespace RewindLexer

universe u

namespace Lexer

/-- A lexer of a text that makes plain tokens. -/
def plain (o : Options) (text : List Char) : Lexer Token (Tape (List Char)) :=
  { ofText Token.builder text with options := o }

/-- The answers to `n` calls, each with the position after it, and the lexer after them. -/
def readTokens {τ : Type} {S : Type u} [FiniteStream S] (l : Lexer τ S) :
    Nat → List (Except Failure τ × Nat) × Lexer τ S
  | 0 => ([], l)
  | n + 1 =>
    let (r, l') := l.readToken
    let (rs, l'') := readTokens l' n
    ((r, l'.position) :: rs, l'')

/-- A call changes nothing but the stream. -/
theorem readToken_snd {τ : Type} {S : Type u} [FiniteStream S] (l : Lexer τ S) :
    l.readToken.2 = { l with stream := l.readToken.2.stream } := by
  rw [readToken]
  split <;> rfl

/-- The token or the cause of the failure, if the run goes on. -/
def verdict {τ : Type} : Except Failure τ → Option (Except LexError τ)
  | .ok t => some (.ok t)
  | .error (.reported e) => some (.error e.cause)
  | .error (.aborted _) => none

end Lexer

/-- What the language says about `n` calls, the first at a position in front of `cs`. -/
def Reference.readTokens (o : Options) (position : Nat) (cs : List Char) :
    Nat → List (Except LexError Token × Nat)
  | 0 => []
  | n + 1 =>
    let (r, rest) := read o cs
    let position := position + (cs.length - rest.length)
    (r, position) :: readTokens o position rest n

namespace Lexer

variable {σ : Type u} [FusedSource σ Char] {l l' : Lexer Token (Tape σ)} {o : Options}
  {text skipped gathered : List Char} {r : Except LexError Token}

/-! ## The state between calls -/

/-- The lexer reads `text` and has consumed it as far as its position says. -/
structure Over (l : Lexer Token (Tape σ)) (o : Options) (text : List Char) : Prop where
  builder_eq : l.builder = Token.builder
  options_eq : l.options = o
  idle : l.stream.Idle
  position_le : l.position ≤ text.length
  view_eq : l.stream.view = text.drop l.position

theorem over_plain (o : Options) (text : List Char) : (plain o text).Over o text where
  builder_eq := rfl
  options_eq := rfl
  idle := ⟨Lookahead.sound_of_source text, rfl, rfl, rfl⟩
  position_le := Nat.zero_le _
  view_eq := Lookahead.view_of_source text

theorem Reads.position_eq (h : l.Reads skipped gathered r l') :
    l'.position = l.position + (skipped ++ gathered).length :=
  h.took.position

theorem Reads.length_eq (h : l.Reads skipped gathered r l') :
    l.stream.view.length - l'.stream.view.length = (skipped ++ gathered).length := by
  have hv := congrArg List.length h.took.view
  rw [List.length_append] at hv
  omega

theorem Reads.over (h : l.Reads skipped gathered r l') (ho : l.Over o text) : l'.Over o text where
  builder_eq := h.builder_eq.trans ho.builder_eq
  options_eq := h.options_eq.trans ho.options_eq
  idle := h.took.idle ho.idle
  position_le := by
    have hv := congrArg List.length (ho.view_eq.symm.trans h.took.view)
    have hle := ho.position_le
    rw [List.length_drop, List.length_append] at hv
    rw [h.position_eq]
    omega
  view_eq := by
    rw [h.position_eq, ← List.drop_drop, ← ho.view_eq, h.took.view, List.drop_left]

theorem Reads.readTokens_succ (h : l.Reads skipped gathered r l') (n : Nat) :
    l.readTokens (n + 1) =
      ((r.mapError fun e =>
          l.options.failure ⟨e, l'.position, e.recordedText (String.ofList gathered)⟩,
          l'.position) ::
        (l'.readTokens n).1, (l'.readTokens n).2) := by
  rw [readTokens, h.readToken_eq]

/-- Every call leaves the lexer over its text. -/
theorem Over.readTokens (ho : l.Over o text) (n : Nat) : (l.readTokens n).2.Over o text := by
  induction n generalizing l with
  | zero => exact ho
  | succ n ih =>
    obtain ⟨skipped, gathered, r, l', h⟩ := exists_reads ho.builder_eq ho.idle
    rw [h.readTokens_succ]
    exact ih (h.over ho)

/-! ## Lexer and language -/

theorem verdict_mapError (ho : o.abortOnError = false) (f : LexError → LocatedError)
    (hf : ∀ e, (f e).cause = e) (r : Except LexError Token) :
    verdict (r.mapError fun e => o.failure (f e)) = some r := by
  cases r with
  | ok t => rfl
  | error e =>
    have hr : o.failure (f e) = .reported (f e) := by
      rw [Options.failure, ho]
      rfl
    show verdict (.error (o.failure (f e))) = _
    rw [hr, verdict, hf]

theorem Over.readTokens_eq (hl : l.Over o text) (ho : o.abortOnError = false) (n : Nat) :
    (l.readTokens n).1.map (fun p => (verdict p.1, p.2)) =
      (Reference.readTokens o l.position l.stream.view n).map fun p => (some p.1, p.2) := by
  induction n generalizing l with
  | zero => rfl
  | succ n ih =>
    obtain ⟨skipped, gathered, r, l', h⟩ := exists_reads hl.builder_eq hl.idle
    have hread := h.read_eq
    rw [hl.options_eq] at hread
    rw [h.readTokens_succ, Reference.readTokens, hread]
    simp only [List.map_cons, h.length_eq, ← h.position_eq, hl.options_eq]
    rw [verdict_mapError ho _ (fun _ => rfl), ih (h.over hl)]

/-- Over any number of calls a lexer that reports its errors answers what the language says, at the
same positions. -/
theorem readTokens_eq_reference (o : Options) (ho : o.abortOnError = false) (text : List Char)
    (n : Nat) :
    ((plain o text).readTokens n).1.map (fun p => (verdict p.1, p.2)) =
      (Reference.readTokens o 0 text n).map fun p => (some p.1, p.2) := by
  have hl := over_plain o text
  have h := hl.readTokens_eq ho n
  rw [hl.view_eq] at h
  exact h

theorem readTokens_eq_reference_after_error :
    ({} : Options).abortOnError = false ∧
      ((plain {} ['a', ' ', '-', 'x']).readTokens 5).1.map (fun p => (verdict p.1, p.2)) =
        [(some (.ok ⟨"a", .name "a"⟩), 1), (some (.error (.invalidInteger "-")), 3),
          (some (.ok ⟨"x", .name "x"⟩), 4), (some (.ok ⟨"", .endOfFile⟩), 4),
          (some (.ok ⟨"", .endOfFile⟩), 4)] := by
  refine ⟨rfl, ?_⟩
  rw [readTokens_eq_reference {} rfl]
  decide +kernel

end Lexer

end RewindLexer
