import RewindLexer.Proofs.Lexer.Requests

/-!
# The list of tokens and the iterator

Both drivers of a lexer make the same calls: those that yield tokens, and the one that halts. Main
statement: the iterator gives the tokens of the list and then the failure, if any, stops for good,
and leaves the stream where the list leaves it. This holds for every finite stream and every builder.
-/

namespace RewindLexer.Lexer

universe u

variable {τ : Type} {S : Type u} [FiniteStream S] {l l₁ l₂ : Lexer τ S} {t : τ} {ts : List τ}
  {failure : Option Failure}

/-! ## Call after call -/

theorem with_stream_of_readToken {r : Except Failure τ} (h : l.readToken = (r, l₁)) :
    l₁ = { l with stream := l₁.stream } := by
  have hs := l.readToken_snd
  rw [h] at hs
  exact hs

/-- The next calls of `l` yield the tokens `ts`, none of which ends the input, and lead to `l₁`. -/
inductive Yields : Lexer τ S → List τ → Lexer τ S → Prop where
  | nil (l : Lexer τ S) : Yields l [] l
  | cons {l l₁ l₂ : Lexer τ S} {t : τ} {ts : List τ} (h : l.readToken = (.ok t, l₁))
    (ht : l.builder.isEndOfFile t = false) (hts : Yields l₁ ts l₂) : Yields l (t :: ts) l₂

/-- The next call of `l` ends the input or fails, and leads to `l₁`. -/
inductive Halts (l l₁ : Lexer τ S) : Option Failure → Prop where
  | ended {t : τ} (h : l.readToken = (.ok t, l₁)) (ht : l.builder.isEndOfFile t = true) :
    Halts l l₁ none
  | failed {e : Failure} (h : l.readToken = (.error e, l₁)) : Halts l l₁ (some e)

theorem exists_yields (l : Lexer τ S) :
    ∃ ts l₁ l₂ failure, l.Yields ts l₁ ∧ l₁.Halts l₂ failure := by
  fun_induction toList l with
  | case1 l e l₁ hr => exact ⟨[], l, l₁, some e, .nil l, .failed hr⟩
  | case2 l t l₁ hr ht => exact ⟨[], l, l₁, none, .nil l, .ended hr ht⟩
  | case3 l t l₁ hr ht _ _ _ ih | case4 l t l₁ hr ht _ _ _ ih =>
    obtain ⟨ts, l₂, l₃, failure, hy, hh⟩ := ih
    exact ⟨t :: ts, l₂, l₃, failure, .cons hr (eq_false_of_ne_true ht) hy, hh⟩

theorem Halts.with_stream (h : l.Halts l₁ failure) : l₁ = { l with stream := l₁.stream } := by
  cases h with
  | ended hr _ | failed hr => exact with_stream_of_readToken hr

theorem Yields.with_stream (h : l.Yields ts l₁) : l₁ = { l with stream := l₁.stream } := by
  induction h with
  | nil l => rfl
  | cons hr ht hts ih => rw [ih, with_stream_of_readToken hr]

theorem Yields.readTokens_eq (h : l.Yields ts l₁) (n : Nat) :
    (l.readTokens (ts.length + n)).1.map Prod.fst =
        ts.map .ok ++ (l₁.readTokens n).1.map Prod.fst ∧
      (l.readTokens (ts.length + n)).2 = (l₁.readTokens n).2 := by
  induction h with
  | nil l => simp
  | @cons l l₁ l₂ t ts hr ht hts ih =>
    rw [List.length_cons, Nat.succ_add, readTokens, hr]
    exact ⟨congrArg (Except.ok t :: ·) ih.1, ih.2⟩

/-! ## The list -/

theorem Halts.toList_eq (h : l.Halts l₁ failure) :
    l.toList = (failure.elim (.ok []) .error, l₁) := by
  cases h with
  | ended hr ht =>
    rw [Lexer.toList_eq, hr]
    exact if_pos ht
  | failed hr =>
    rw [Lexer.toList_eq, hr]
    rfl

/-- The tokens yielded make the list, unless the last call fails. -/
theorem Yields.toList_eq (h : l.Yields ts l₁) (hh : l₁.Halts l₂ failure) :
    l.toList = (failure.elim (.ok ts) .error, l₂) := by
  induction h with
  | nil l => exact hh.toList_eq
  | cons hr ht hts ih =>
    rw [Lexer.toList_eq, hr]
    simp only [ht, Bool.false_eq_true, if_false, ih hh]
    cases failure <;> rfl

/-! ## The iterator -/

/-- The answers to `n` steps of the iterator, and the lexer after them. -/
def nexts (l : Lexer τ S) : Nat → List (Option (Except Failure τ)) × Lexer τ S
  | 0 => ([], l)
  | n + 1 =>
    let (r, l') := l.next
    let (rs, l'') := nexts l' n
    (r :: rs, l'')

theorem next_of_finished (hf : l.finished = true) : l.next = (none, l) := by
  simp only [next, hf, if_true]

theorem nexts_of_finished (hf : l.finished = true) (n : Nat) :
    l.nexts n = (List.replicate n none, l) := by
  induction n with
  | zero => rfl
  | succ n ih =>
    rw [nexts, next_of_finished hf]
    simp only [ih]
    rfl

theorem next_of_token (hf : l.finished = false) (hr : l.readToken = (.ok t, l₁))
    (ht : l.builder.isEndOfFile t = false) : l.next = (some (.ok t), l₁) := by
  simp only [next, hf, hr, ht, Bool.false_eq_true, if_false]

theorem Yields.nexts_eq (h : l.Yields ts l₁) (hf : l.finished = false) (n : Nat) :
    l.nexts (ts.length + n) = (ts.map (some ∘ .ok) ++ (l₁.nexts n).1, (l₁.nexts n).2) := by
  induction h with
  | nil l => simp
  | @cons l l₁ l₂ t ts hr ht hts ih =>
    have hf₁ : l₁.finished = false := by
      rw [with_stream_of_readToken hr]
      exact hf
    rw [List.length_cons, Nat.succ_add, nexts, next_of_token hf hr ht]
    simp only [ih hf₁]
    rfl

theorem reported_of_readToken (ho : l.options.abortOnError = false) {e : Failure}
    (h : l.readToken = (.error e, l₁)) : ∃ e', e = .reported e' := by
  simp only [readToken] at h
  split at h
  · cases h
  · cases h
    simp only [Options.failure, ho]
    exact ⟨_, rfl⟩

/-- The call that halts finishes the iterator. -/
theorem Halts.next_eq (h : l.Halts l₁ failure) (hf : l.finished = false)
    (ho : l.options.abortOnError = false) :
    l.next = (failure.map .error, { l₁ with finished := true }) := by
  cases h with
  | ended hr ht =>
    simp only [next, hf, hr, ht, Bool.false_eq_true, if_false, if_true, Option.map_none]
  | failed hr =>
    obtain ⟨e, rfl⟩ := reported_of_readToken ho hr
    simp only [next, hf, hr, Bool.false_eq_true, if_false, Option.map_some]

theorem Halts.nexts_eq (h : l.Halts l₁ failure) (hf : l.finished = false)
    (ho : l.options.abortOnError = false) (n : Nat) :
    l.nexts (n + 1) =
      (failure.map .error :: List.replicate n none, { l₁ with finished := true }) := by
  rw [nexts, h.next_eq hf ho]
  simp only [nexts_of_finished]

theorem finished_of_next (ho : l.options.abortOnError = false)
    (h : l.next.1 = none ∨ ∃ e, l.next.1 = some (.error e)) : l.next.2.finished = true := by
  cases hf : l.finished with
  | true =>
    rw [next_of_finished hf]
    exact hf
  | false =>
    obtain ⟨ts, l₁, l₂, failure, hy, hh⟩ := l.exists_yields
    cases hy with
    | nil => rw [hh.next_eq hf ho]
    | cons hr ht hts =>
      rw [next_of_token hf hr ht] at h
      rcases h with h | ⟨e, h⟩
      · cases h
      · cases h

/-! ## The calls of both drivers -/

theorem Yields.not_isEndOfFile (h : l.Yields ts l₁) : ∀ t ∈ ts, l.builder.isEndOfFile t = false := by
  induction h with
  | nil l =>
    intro t ht
    cases ht
  | @cons l l₁ l₂ t ts hr ht hts ih =>
    rw [with_stream_of_readToken hr] at ih
    intro t' ht'
    cases ht' with
    | head => exact ht
    | tail _ ht' => exact ih t' ht'

theorem Halts.run_eq (h : l.Halts l₁ failure) (hf : l.finished = false) :
    l.run.1 = ⟨[], failure⟩ ∧ l.run.2.stream = l₁.stream := by
  rw [Lexer.run_eq, next, hf]
  cases h with
  | ended hr ht => simp [hr, ht]
  | @failed e hr => cases e <;> simp [hr]

theorem Yields.run_eq (h : l.Yields ts l₁) (hh : l₁.Halts l₂ failure) (hf : l.finished = false) :
    l.run.1.tokens.map Prod.fst = ts ∧ l.run.1.failure = failure ∧ l.run.2.stream = l₂.stream := by
  induction h with
  | nil l =>
    obtain ⟨hr, hs⟩ := hh.run_eq hf
    rw [hr]
    exact ⟨rfl, rfl, hs⟩
  | @cons l l₁ l₂ t ts hr ht hts ih =>
    have hf₁ : l₁.finished = false := by
      rw [with_stream_of_readToken hr]
      exact hf
    obtain ⟨htokens, hfailure, hs⟩ := ih hh hf₁
    rw [Lexer.run_eq, next_of_token hf hr ht]
    exact ⟨congrArg (t :: ·) htokens, hfailure, hs⟩

/-- The answer of the call that halts. -/
theorem Halts.exists_answer (h : l.Halts l₁ failure) :
    ∃ last, l.readToken = (last, l₁) ∧ (∀ t, last = .ok t → l.builder.isEndOfFile t = true) ∧
      ∀ ts : List τ, failure.elim (.ok ts) .error = last.map fun _ => ts := by
  cases h with
  | @ended t hr ht =>
    refine ⟨.ok t, hr, ?_, fun _ => rfl⟩
    intro t' he
    cases he
    exact ht
  | @failed e hr =>
    refine ⟨.error e, hr, ?_, fun _ => rfl⟩
    intro t he
    cases he

/-- The calls of both drivers: those that yield the tokens `ts`, and the one that answers `last`. -/
theorem exists_calls (l : Lexer τ S) :
    ∃ (ts : List τ) (l₁ : Lexer τ S) (last : Except Failure τ),
      l.Yields ts l₁ ∧
      (l.readTokens (ts.length + 1)).1.map Prod.fst = ts.map .ok ++ [last] ∧
      (∀ t ∈ ts, l.builder.isEndOfFile t = false) ∧
      (∀ t, last = .ok t → l.builder.isEndOfFile t = true) ∧
      l.toList = (last.map fun _ => ts, (l.readTokens (ts.length + 1)).2) ∧
      (l.finished = false →
        l.run.1.toExcept = (last.map fun _ => ts) ∧ l.run.1.tokens.map Prod.fst = ts ∧
          l.run.2.stream = (l.readTokens (ts.length + 1)).2.stream) := by
  obtain ⟨ts, l₁, l₂, failure, hy, hh⟩ := l.exists_yields
  obtain ⟨last, hlast, hends, helim⟩ := hh.exists_answer
  obtain ⟨hanswers, hafter⟩ := hy.readTokens_eq 1
  have hcall : l₁.readTokens 1 = ([(last, l₂.position)], l₂) := by
    rw [readTokens, hlast]
    rfl
  rw [hcall] at hanswers hafter
  refine ⟨ts, l₁, last, hy, hanswers, hy.not_isEndOfFile, ?_, ?_, ?_⟩
  · rw [hy.with_stream] at hends
    exact hends
  · rw [hy.toList_eq hh, helim, hafter]
  · intro hf
    obtain ⟨htokens, hfailure, hstream⟩ := hy.run_eq hh hf
    refine ⟨?_, htokens, ?_⟩
    · rw [← helim, Run.toExcept, hfailure, htokens]
      cases failure <;> rfl
    · rw [hstream, hafter]

/-! ## Any requests in between -/

theorem toList_snd (l : Lexer τ S) : l.toList.2 = { l with stream := l.toList.2.stream } := by
  obtain ⟨ts, l₁, l₂, failure, hy, hh⟩ := l.exists_yields
  rw [hy.toList_eq hh, hh.with_stream, hy.with_stream]

theorem next_snd (l : Lexer τ S) :
    l.next.2 = { l with stream := l.next.2.stream, finished := l.next.2.finished } := by
  rw [next]
  split
  · rfl
  · cases hr : l.readToken with
    | mk answer l₁ =>
      have hl₁ := with_stream_of_readToken hr
      cases answer with
      | ok t =>
        dsimp only
        split
        · rw [hl₁]
        · rw [hl₁]
      | error e =>
        cases e with
        | reported e => rw [hl₁]
        | aborted e => rw [hl₁]

theorem perform_keeps (l : Lexer τ S) (request : Request) :
    (l.perform request).2.builder = l.builder ∧ (l.perform request).2.options = l.options := by
  cases request with
  | readToken =>
    rw [perform, readToken_snd]
    exact ⟨rfl, rfl⟩
  | next =>
    rw [perform, next_snd]
    exact ⟨rfl, rfl⟩
  | toList =>
    rw [perform, toList_snd]
    exact ⟨rfl, rfl⟩

theorem performAll_keeps (l : Lexer τ S) (requests : List Request) :
    (l.performAll requests).2.builder = l.builder ∧
      (l.performAll requests).2.options = l.options := by
  induction requests generalizing l with
  | nil => exact ⟨rfl, rfl⟩
  | cons request requests ih =>
    obtain ⟨hb, ho⟩ := l.perform_keeps request
    obtain ⟨hb', ho'⟩ := ih (l.perform request).2
    exact ⟨hb'.trans hb, ho'.trans ho⟩

theorem finished_perform (hf : l.finished = true) (request : Request) :
    (l.perform request).2.finished = true := by
  cases request with
  | readToken =>
    rw [perform, readToken_snd]
    exact hf
  | next =>
    rw [perform, next_of_finished hf]
    exact hf
  | toList =>
    rw [perform, toList_snd]
    exact hf

theorem finished_performAll (hf : l.finished = true) (requests : List Request) :
    (l.performAll requests).2.finished = true := by
  induction requests generalizing l with
  | nil => exact hf
  | cons request requests ih => exact ih (finished_perform hf request)

/-! ## The drivers agree -/

/-- If the list is given, the iterator gives its tokens and then nothing; if it fails, the iterator
gives the tokens read before, the failure and then nothing. Both leave the stream in the same state.
Once the iterator has given nothing or a failure, it gives nothing and leaves the lexer alone,
whatever else is asked in between. -/
theorem nexts_agree_toList (l : Lexer τ S) (hf : l.finished = false)
    (ho : l.options.abortOnError = false) :
    (∀ ts, l.toList.1 = .ok ts → ∀ k,
      l.nexts (ts.length + (k + 1)) =
        (ts.map (some ∘ .ok) ++ none :: List.replicate k none,
          { l.toList.2 with finished := true })) ∧
    (∀ e, l.toList.1 = .error e → ∃ ts : List τ,
      (l.readTokens (ts.length + 1)).1.map Prod.fst = ts.map .ok ++ [.error e] ∧
      ∀ k, l.nexts (ts.length + (k + 1)) =
        (ts.map (some ∘ .ok) ++ some (.error e) :: List.replicate k none,
          { l.toList.2 with finished := true })) ∧
    ∀ before after : List Request,
      let l₁ := (l.performAll before).2
      let l₂ := (l₁.next.2.performAll after).2
      (l₁.next.1 = none ∨ ∃ e, l₁.next.1 = some (.error e)) → l₂.next = (none, l₂) := by
  obtain ⟨ts, l₁, l₂, failure, hy, hh⟩ := l.exists_yields
  have hf₁ : l₁.finished = false := by
    rw [hy.with_stream]
    exact hf
  have ho₁ : l₁.options.abortOnError = false := by
    rw [hy.with_stream]
    exact ho
  have hnexts : ∀ k, l.nexts (ts.length + (k + 1)) =
      (ts.map (some ∘ .ok) ++ failure.map .error :: List.replicate k none,
        { l₂ with finished := true }) := by
    intro k
    rw [hy.nexts_eq hf, hh.nexts_eq hf₁ ho₁]
  rw [hy.toList_eq hh]
  refine ⟨?_, ?_, ?_⟩
  · intro ts' hts
    cases hh with
    | ended hr ht =>
      cases hts
      exact hnexts
    | failed hr => cases hts
  · intro e he
    cases hh with
    | ended hr ht => cases he
    | failed hr =>
      cases he
      refine ⟨ts, ?_, hnexts⟩
      rw [(hy.readTokens_eq 1).1, readTokens, hr]
      rfl
  · intro before after l₃ l₄ hl
    have ho₃ : l₃.options.abortOnError = false := by
      rw [(l.performAll_keeps before).2]
      exact ho
    exact next_of_finished (finished_performAll (finished_of_next ho₃ hl) after)

/-- One text that ends and one on which a call fails. -/
theorem nexts_agree_toList_texts :
    let l := plain {} ['a', ' ', '1']
    let l' := plain {} ['a', ' ', '\\', ' ', 'b']
    let e : LocatedError := ⟨.noToken '\\', 2, ""⟩
    (l.finished = false ∧ l.options.abortOnError = false ∧
      (l.nexts 4).1 =
        [some (.ok ⟨"a", .name "a"⟩), some (.ok ⟨"1", .integer 1⟩), none, none]) ∧
    (l'.finished = false ∧ l'.options.abortOnError = false ∧
      ∃ ts : List Token, ∀ k, (l'.nexts (ts.length + (k + 1))).1 =
        ts.map (some ∘ .ok) ++ some (.error (.reported e)) :: List.replicate k none) := by
  intro l l' e
  have hlist : l.toList.1 = .ok [⟨"a", .name "a"⟩, ⟨"1", .integer 1⟩] := by
    rw [toList_plain]
    decide +kernel
  have hlist' : l'.toList.1 = .error (.reported e) := by
    rw [toList_plain]
    decide +kernel
  obtain ⟨hok, -⟩ := nexts_agree_toList l rfl rfl
  obtain ⟨-, herror, -⟩ := nexts_agree_toList l' rfl rfl
  obtain ⟨ts, -, hts⟩ := herror _ hlist'
  refine ⟨⟨rfl, rfl, congrArg Prod.fst (hok _ hlist 1)⟩, rfl, rfl, ts, ?_⟩
  intro k
  exact congrArg Prod.fst (hts k)

end RewindLexer.Lexer
