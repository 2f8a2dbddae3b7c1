import RewindLexer.Proofs.Lexer.Calls
import RewindLexer.Proofs.Lexer.Locality

/-!
# From a text to its tokens

A lexer is called until the input ends or a call fails, by its iterator or for the list of its
tokens. `Reference.lex` says on the text alone what comes of it. Main statements: both drivers give
what `lex` says, and `lex` can be computed call by call, from the text that each call takes off.
-/

namespace RewindLexer

universe u

/-! ## Runs -/

namespace Lexer.Run

variable {τ : Type}

/-- A run that begins with one more token. -/
def cons (p : τ × Nat) (r : Run τ) : Run τ :=
  { r with tokens := p :: r.tokens }

/-- The tokens of a run, or what it failed with. -/
def toExcept (r : Run τ) : Except Failure (List τ) :=
  match r.failure with
  | none => .ok (r.tokens.map Prod.fst)
  | some e => .error e

theorem toExcept_cons (p : τ × Nat) (r : Run τ) :
    (r.cons p).toExcept = r.toExcept.map (p.1 :: ·) := by
  obtain ⟨tokens, _ | e⟩ := r <;> rfl

theorem tokens_of_toExcept {r : Run τ} {ts : List τ} (h : r.toExcept = .ok ts) :
    r.tokens.map Prod.fst = ts := by
  obtain ⟨tokens, _ | e⟩ := r
  · exact Except.ok.inj h
  · cases h

end Lexer.Run

/-! ## The language -/

namespace Reference

variable {o : Options} {position position' : Nat} {cs skipped text rest : List Char} {tok : Token}
  {r : Except LexError Token}

/-- One call at a position in front of `cs`: the answer, the position after it and the rest. -/
def call (o : Options) (position : Nat) (cs : List Char) :
    Except Failure Token × Nat × List Char :=
  let (r, rest) := read o cs
  let position := position + (cs.length - rest.length)
  (r.mapError fun e => o.failure ⟨e, position, e.recordedText (taken (dropTrivia cs) rest)⟩,
    position, rest)

theorem Parted.call_eq (h : Parted o cs skipped text r rest) (position : Nat) :
    call o position cs =
      (r.mapError fun e => o.failure
          ⟨e, position + (skipped ++ text).length, e.recordedText (String.ofList text)⟩,
        position + (skipped ++ text).length, rest) := by
  have hl := congrArg List.length h.eq
  rw [← List.append_assoc, List.length_append] at hl
  have hn : cs.length - rest.length = (skipped ++ text).length := by omega
  simp only [call, h.read_eq, h.dropTrivia_eq, taken_append, hn]

theorem call_of_end (position : Nat) (h : dropTrivia cs = []) :
    call o position cs = (.ok ⟨"", .endOfFile⟩, position + cs.length, []) := by
  simp only [call, read, h]
  rfl

theorem not_isEndOfFile_of_token {c : Char} (h : token o c cs = (.ok tok, rest)) :
    tok.isEndOfFile = false := by
  have hstarts := starts_of_token h
  cases tok with
  | mk lexeme value =>
    cases value with
    | endOfFile => exact hstarts.elim
    | _ => rfl

theorem isEndOfFile_of_read (h : read o cs = (.ok tok, rest)) :
    tok.isEndOfFile = true ↔ dropTrivia cs = [] := by
  rw [read] at h
  split at h
  · rename_i hd
    cases h
    simp [hd, Token.isEndOfFile]
  · rename_i c cs' hd
    simp [hd, not_isEndOfFile_of_token h]

theorem read_of_call (h : call o position cs = (.ok tok, position', rest)) :
    read o cs = (.ok tok, rest) := by
  cases hr : read o cs with
  | mk r rest' =>
    simp only [call, hr] at h
    cases r with
    | error e => cases h
    | ok tok' =>
      cases h
      rfl

/-- A call that answers a token before the end of the input has taken its text off. -/
theorem exists_parted_of_call (h : call o position cs = (.ok tok, position', rest))
    (ht : ¬tok.isEndOfFile = true) :
    ∃ skipped text, Parted o cs skipped text (.ok tok) rest ∧
      position' = position + (skipped ++ text).length := by
  have hr := read_of_call h
  obtain ⟨skipped, text, hp⟩ := exists_parted hr (mt (isEndOfFile_of_read hr).2 ht)
  rw [hp.call_eq] at h
  cases h
  exact ⟨skipped, text, hp, rfl⟩

theorem length_call_lt (h : call o position cs = (.ok tok, position', rest))
    (ht : ¬tok.isEndOfFile = true) : rest.length < cs.length := by
  obtain ⟨skipped, text, hp, -⟩ := exists_parted_of_call h ht
  have hpos := List.length_pos_iff.2 (hp.ne_nil ⟨tok, rfl⟩)
  rw [hp.eq, List.length_append, List.length_append]
  omega

/-- Call after call at a position in front of `cs`, until the input ends or a call fails. -/
def lex (o : Options) (position : Nat) (cs : List Char) : Lexer.Run Token :=
  match _h : call o position cs with
  | (.error e, _, _) => ⟨[], some e⟩
  | (.ok tok, position', rest) =>
    if _ht : tok.isEndOfFile then ⟨[], none⟩ else (lex o position' rest).cons (tok, position')
termination_by cs.length
decreasing_by exact length_call_lt _h _ht

theorem lex_eq (o : Options) (position : Nat) (cs : List Char) :
    lex o position cs =
      match call o position cs with
      | (.error e, _, _) => ⟨[], some e⟩
      | (.ok tok, position', rest) =>
        if tok.isEndOfFile then ⟨[], none⟩ else (lex o position' rest).cons (tok, position') := by
  rw [lex]
  split <;> rename_i h <;> rw [h]
  rfl

theorem lex_of_end (o : Options) (position : Nat) (h : dropTrivia cs = []) :
    lex o position cs = ⟨[], none⟩ := by
  rw [lex_eq, call_of_end position h]
  rfl

theorem Parted.lex_eq (h : Parted o cs skipped text (.ok tok) rest) (position : Nat) :
    lex o position cs =
      (lex o (position + (skipped ++ text).length) rest).cons
        (tok, position + (skipped ++ text).length) := by
  have hne : dropTrivia cs ≠ [] := by
    rw [h.dropTrivia_eq]
    exact List.append_ne_nil_of_left_ne_nil (h.ne_nil ⟨tok, rfl⟩) rest
  have ht : ¬tok.isEndOfFile = true := mt (isEndOfFile_of_read h.read_eq).1 hne
  rw [Reference.lex_eq, h.call_eq]
  exact if_neg ht

end Reference

/-! ## The lexer -/

namespace Lexer

variable {σ : Type u} [FusedSource σ Char] {l l' : Lexer Token (Tape σ)} {o : Options}
  {text : List Char}

theorem finished_readToken (l : Lexer Token (Tape σ)) : l.readToken.2.finished = l.finished := by
  rw [readToken]
  split <;> rfl

theorem Over.exists_call (h : l.Over o text) :
    ∃ l', l.readToken = ((Reference.call o l.position l.stream.view).1, l') ∧ l'.Over o text ∧
      l'.finished = l.finished ∧
      (Reference.call o l.position l.stream.view).2 = (l'.position, l'.stream.view) := by
  obtain ⟨skipped, gathered, r, l', hr⟩ := exists_reads h.builder_eq h.idle
  have hc : Reference.call o l.position l.stream.view =
      (l.readToken.1, l'.position, l'.stream.view) := by
    have hread := hr.read_eq
    rw [h.options_eq] at hread
    simp only [Reference.call, hread, hr.dropTrivia_eq, Reference.taken_append, hr.length_eq,
      ← hr.position_eq, hr.readToken_eq, h.options_eq]
  have hl' : l.readToken.2 = l' := congrArg Prod.snd hr.readToken_eq
  refine ⟨l', ?_, hr.over h, ?_, ?_⟩
  · rw [hc, ← hl']
  · rw [← hl']
    exact finished_readToken l
  · rw [hc]

section

variable {τ : Type} {S : Type u} [FiniteStream S]

theorem run_eq (l : Lexer τ S) :
    l.run =
      match l.next with
      | (none, l') => (⟨[], none⟩, l')
      | (some (.error e), l') => (⟨[], some e⟩, l')
      | (some (.ok t), l') => (l'.run.1.cons (t, l'.position), l'.run.2) := by
  rw [run]
  split <;> rename_i h <;> rw [h]
  rfl

theorem toList_eq (l : Lexer τ S) :
    l.toList =
      match l.readToken with
      | (.error e, l') => (.error e, l')
      | (.ok t, l') =>
        if l.builder.isEndOfFile t then (.ok [], l')
        else (l'.toList.1.map (t :: ·), l'.toList.2) := by
  rw [toList]
  split <;> rename_i t l' h <;> rw [h]
  split <;> rename_i ht
  · exact (if_pos ht).symm
  · simp only [if_neg ht]
    cases hl : l'.toList with
    | mk answer l'' => cases answer <;> rfl

end

/-- What one call of a lexer makes of the run that begins with it. -/
inductive Begins (l l' : Lexer Token (Tape σ)) (o : Options) : Run Token → Prop where
  | failure {e : Failure} (h : l.readToken = (.error e, l')) : Begins l l' o ⟨[], some e⟩
  | ended {tok : Token} (h : l.readToken = (.ok tok, l'))
    (ht : l.builder.isEndOfFile tok = true) : Begins l l' o ⟨[], none⟩
  | token {tok : Token} (h : l.readToken = (.ok tok, l')) (ht : l.builder.isEndOfFile tok = false)
    (hlt : l'.stream.view.length < l.stream.view.length) :
    Begins l l' o ((Reference.lex o l'.position l'.stream.view).cons (tok, l'.position))

theorem Over.begins (h : l.Over o text) :
    ∃ l', l'.Over o text ∧ l'.finished = l.finished ∧
      Begins l l' o (Reference.lex o l.position l.stream.view) := by
  obtain ⟨l', hr, ho, hf, hafter⟩ := h.exists_call
  refine ⟨l', ho, hf, ?_⟩
  cases hc : Reference.call o l.position l.stream.view with
  | mk answer after =>
    rw [hc] at hr hafter
    cases hafter
    rw [Reference.lex_eq, hc]
    cases answer with
    | error e => exact .failure hr
    | ok tok =>
      have hb : l.builder.isEndOfFile tok = tok.isEndOfFile := by
        rw [h.builder_eq]
        rfl
      by_cases ht : tok.isEndOfFile = true
      · simp only [if_pos ht]
        exact .ended hr (hb.trans ht)
      · simp only [if_neg ht]
        exact .token hr (hb.trans (eq_false_of_ne_true ht)) (Reference.length_call_lt hc ht)

/-- The iterator gives what the language says. -/
theorem Over.run_eq_lex (h : l.Over o text) (hf : l.finished = false) :
    l.run.1 = Reference.lex o l.position l.stream.view := by
  -- Every token takes something off the view, so the induction is on its length.
  induction hn : l.stream.view.length using Nat.strongRecOn generalizing l with
  | ind n ih =>
    obtain ⟨l', ho, hf', hb⟩ := h.begins
    generalize Reference.lex o l.position l.stream.view = r at hb
    rw [run_eq, next, hf]
    cases hb with
    | @failure e hr => cases e <;> simp [hr]
    | ended hr ht => simp [hr, ht]
    | token hr ht hlt => simp [hr, ht, ih _ (hn ▸ hlt) ho (hf'.trans hf) rfl]

/-- The list of tokens is the one that the language says. -/
theorem Over.toList_eq_lex (h : l.Over o text) :
    l.toList.1 = (Reference.lex o l.position l.stream.view).toExcept := by
  induction hn : l.stream.view.length using Nat.strongRecOn generalizing l with
  | ind n ih =>
    obtain ⟨l', ho, -, hb⟩ := h.begins
    generalize Reference.lex o l.position l.stream.view = r at hb
    rw [toList_eq]
    cases hb with
    | failure hr => simp [hr, Run.toExcept]
    | ended hr ht => simp [hr, ht, Run.toExcept]
    | token hr ht hlt => simp [hr, ht, ih _ (hn ▸ hlt) ho rfl, Run.toExcept_cons]

theorem run_plain (o : Options) (text : List Char) :
    (plain o text).run.1 = Reference.lex o 0 text := by
  have h := over_plain o text
  have hr := h.run_eq_lex rfl
  rw [h.view_eq] at hr
  exact hr

theorem toList_plain (o : Options) (text : List Char) :
    (plain o text).toList.1 = (Reference.lex o 0 text).toExcept := by
  have h := over_plain o text
  have hr := h.toList_eq_lex
  rw [h.view_eq] at hr
  exact hr

end Lexer

end RewindLexer
