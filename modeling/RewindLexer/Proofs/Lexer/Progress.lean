import RewindLexer.Proofs.Lexer.Builders
import RewindLexer.Proofs.Lexer.Iteration
import RewindLexer.Proofs.Lexer.Lossless

/-!
# Progress

Main statement: a call of a lexer moves the position on if it answers a token before the end of the
input, or fails for another reason than that no token starts here; every other call is repeated for
ever. So each driver makes at most one call more than there are characters.
-/

namespace RewindLexer

open Text

universe u

/-! ## The language -/

namespace Reference

variable {o : Options} {c d : Char} {cs rest : List Char} {r : Except LexError Token}

theorem rest_of_noToken (h : token o c cs = (.error (.noToken d), rest)) : rest = c :: cs := by
  simp only [token] at h
  split at h
  · cases h
  split at h
  · split at h
    · rename_i e rest' hq
      exact absurd (Except.error.inj (congrArg Prod.fst h)) (closing_ne_noToken hq)
    · cases h
  split at h
  · split at h
    · cases h
    · cases h
  split at h
  · cases h
  split at h
  · cases h
  · cases h
    rfl

/-- The answers after which nothing is read any more: that the input ends, and that no token starts
here. -/
def Stays : Except LexError Token → Prop
  | .ok tok => tok.isEndOfFile = true
  | .error (.noToken _) => True
  | .error _ => False

theorem stays_error_iff {e : LexError} : Stays (.error e) ↔ ∃ c, e = .noToken c := by
  cases e with
  | noToken c => simp [Stays]
  | _ => simp [Stays]

theorem rest_of_stays (h : read o cs = (r, rest)) (hr : Stays r) : rest = dropTrivia cs := by
  rw [read] at h
  split at h
  · rename_i hd
    cases h
    exact hd.symm
  · rename_i c cs' hd
    rw [hd]
    cases r with
    | ok tok =>
      have ht : tok.isEndOfFile = true := hr
      rw [not_isEndOfFile_of_token h] at ht
      cases ht
    | error e =>
      cases e with
      | noToken d => exact rest_of_noToken h
      | _ => cases hr

theorem length_rest_lt (h : read o cs = (r, rest)) (hr : ¬Stays r) :
    rest.length < (dropTrivia cs).length := by
  rw [read] at h
  split at h
  · cases h
    exact absurd rfl hr
  · rename_i c cs' hd
    rw [hd]
    rcases token_decides h with ⟨text, rfl, -⟩ | ⟨rfl, -⟩
    · rw [List.length_cons, List.length_append]
      omega
    · exact absurd trivial hr

theorem read_again (h : read o cs = (r, rest)) (hr : Stays r) : read o rest = (r, rest) := by
  have hrest := rest_of_stays h hr
  subst hrest
  rw [read_of_dropTrivia o (dropTrivia_dropTrivia cs), h]

end Reference

/-! ## Plain tokens -/

namespace Lexer

open Reference

section

variable {σ : Type u} [FusedSource σ Char] {l l' : Lexer Token (Tape σ)} {o : Options}
  {text skipped gathered : List Char} {r : Except LexError Token}

theorem Reads.position_lt (h : l.Reads skipped gathered r l') (hr : ¬Stays r) :
    l.position < l'.position := by
  have hlt := length_rest_lt h.read_eq hr
  rw [h.dropTrivia_eq, List.length_append] at hlt
  rw [h.position_eq, List.length_append]
  omega

theorem Reads.gathered_eq_nil (h : l.Reads skipped gathered r l') (hr : Stays r) :
    gathered = [] := by
  have hrest := rest_of_stays h.read_eq hr
  rw [h.dropTrivia_eq] at hrest
  exact List.append_left_eq_self.1 hrest.symm

/-- In front of a text on which nothing is read, all calls answer the same. -/
theorem Over.readTokens_stays (ho : l.Over o text)
    (h : read o l.stream.view = (r, l.stream.view)) (n : Nat) :
    (l.readTokens n).1 =
      List.replicate n
        (r.mapError fun e => o.failure ⟨e, l.position, e.recordedText (String.ofList [])⟩,
          l.position) := by
  induction n generalizing l with
  | zero => rfl
  | succ n ih =>
    obtain ⟨skipped, gathered, r', l', hreads⟩ := exists_reads ho.builder_eq ho.idle
    have hread := hreads.read_eq
    rw [ho.options_eq, h] at hread
    obtain ⟨rfl, hview⟩ := Prod.mk.inj hread
    have hnil : skipped ++ gathered = [] := by
      have htook := hreads.took.view
      rw [← hview] at htook
      exact List.append_left_eq_self.1 htook.symm
    have hpos : l'.position = l.position := by
      rw [hreads.position_eq, hnil]
      rfl
    rw [hview] at h
    have hrest := ih (hreads.over ho) h
    rw [hpos] at hrest
    rw [hreads.readTokens_succ, hrest, ho.options_eq, hpos, (List.append_eq_nil_iff.1 hnil).2]
    rfl

theorem Reads.readTokens_again (h : l.Reads skipped gathered r l') (ho : l.Over o text)
    (hr : Stays r) (n : Nat) :
    (l'.readTokens n).1 = List.replicate n (l.readToken.1, l'.position) := by
  have hread := h.read_eq
  rw [ho.options_eq] at hread
  rw [(h.over ho).readTokens_stays (read_again hread hr), h.readToken_eq, ho.options_eq,
    h.gathered_eq_nil hr]

end

/-! ## Any builder -/

variable {τ : Type} {σ : Type u} [FusedSource σ Char] {l l₁ : Lexer τ (Tape σ)} {o : Options}
  {text : List Char} {ts : List τ}

/-- What the answer `r` of the language means for the next call of a lexer with any builder. -/
structure Answers (l : Lexer τ (Tape σ)) (o : Options) (r : Except LexError Token) : Prop where
  ok {t : τ} : l.readToken.1 = .ok t → ∃ tok, r = .ok tok ∧ t = l.builder.build tok
  error {e : LocatedError} : l.readToken.1 = .error (o.failure e) → r = .error e.cause
  advances : ¬Stays r → l.position < l.readToken.2.position
  repeats : Stays r → ∀ n,
    (l.readToken.2.readTokens n).1 = List.replicate n (l.readToken.1, l.readToken.2.position)

theorem exists_answers (ho : l.plainly.Over o text) :
    (∃ r, l.Answers o r) ∧ l.readToken.2.plainly.Over o text := by
  obtain ⟨skipped, gathered, r, l', h⟩ := exists_reads ho.builder_eq ho.idle
  obtain ⟨hanswer, hplain, hb⟩ := l.readToken_plainly
  have hl' : l.readToken.2.plainly = l' := by rw [hplain, h.readToken_eq]
  have hpos : l.readToken.2.position = l'.position := by
    rw [← hl']
    rfl
  refine ⟨⟨r, ?_, ?_, ?_, ?_⟩, ?_⟩
  · intro t ht
    rw [hanswer, h.readToken_eq] at ht
    cases r with
    | ok tok =>
      cases ht
      exact ⟨tok, rfl, rfl⟩
    | error e => cases ht
  · intro e he
    rw [hanswer, h.readToken_eq, ho.options_eq] at he
    cases r with
    | ok tok => cases he
    | error cause =>
      cases failure_inj (Except.error.inj he)
      rfl
  · intro hr
    rw [hpos]
    exact h.position_lt hr
  · intro hr n
    rw [(l.readToken.2.readTokens_plainly n).1, hl', h.readTokens_again ho hr, hb, hanswer, hpos,
      List.map_replicate]
  · rw [hl']
    exact h.over ho

/-- A token that does not end the input moves the position on. -/
theorem position_lt_of_token (ho : l.plainly.Over o text) {t : τ}
    (hr : l.readToken = (.ok t, l₁)) (ht : l.builder.isEndOfFile t = false) :
    l.position < l₁.position := by
  obtain ⟨⟨r, ha⟩, -⟩ := exists_answers ho
  have hadv := ha.advances
  have hok := ha.ok (t := t)
  rw [hr] at hadv hok
  obtain ⟨tok, rfl, rfl⟩ := hok rfl
  refine hadv ?_
  intro hs
  rw [l.builder.build_of_isEndOfFile hs, l.builder.isEndOfFile_endOfFile] at ht
  cases ht

theorem Yields.position_le (h : l.Yields ts l₁) (ho : l.plainly.Over o text) :
    l.position + ts.length ≤ l₁.position ∧ l₁.plainly.Over o text := by
  induction h with
  | nil l => exact ⟨Nat.le_refl _, ho⟩
  | cons hr ht hts ih =>
    have hlt := position_lt_of_token ho hr ht
    have ho₁ := (exists_answers ho).2
    rw [hr] at ho₁
    obtain ⟨hle, ho₂⟩ := ih ho₁
    refine ⟨?_, ho₂⟩
    rw [List.length_cons]
    omega

theorem over_toList (ho : l.plainly.Over o text) : l.toList.2.plainly.Over o text := by
  obtain ⟨ts, l₁, l₂, failure, hy, hh⟩ := l.exists_yields
  have ho₂ := (exists_answers (hy.position_le ho).2).2
  rw [hy.toList_eq hh]
  cases hh with
  | ended hr _ | failed hr =>
    rw [hr] at ho₂
    exact ho₂

theorem over_next (ho : l.plainly.Over o text) : l.next.2.plainly.Over o text := by
  have ho₁ := (exists_answers ho).2
  rw [next]
  split
  · exact ho
  · split <;> rename_i hr <;> rw [hr] at ho₁
    · split
      · exact { ho₁ with }
      · exact ho₁
    · exact { ho₁ with }
    · exact ho₁

theorem over_performAll (ho : l.plainly.Over o text) (requests : List Request) :
    (l.performAll requests).2.plainly.Over o text := by
  induction requests generalizing l with
  | nil => exact ho
  | cons request requests ih =>
    cases request with
    | readToken => exact ih (exists_answers ho).2
    | next => exact ih (over_next ho)
    | toList => exact ih (over_toList ho)

/-! ## Every call of every run -/

/-- After any requests, a call that answers another token than the end of the input, or fails for
another reason than that no token starts here, moves the position on. A call that fails for this
reason is repeated for ever, and so is one that answers the end of the input, if that is told apart
from other tokens. Both drivers make one call for each token before the end of the input, with
progress each time, and one more. -/
theorem readToken_progress (b : TokenBuilder τ) (o : Options) (text : List Char)
    (requests : List Request) :
    let start : Lexer τ (Tape (List Char)) := { ofText b text with options := o }
    let l := (start.performAll requests).2
    let l' := l.readToken.2
    (∀ t, l.readToken.1 = .ok t → t ≠ b.endOfFile → l.position < l'.position) ∧
    (∀ e : LocatedError, l.readToken.1 = .error (o.failure e) → (∀ c, e.cause ≠ .noToken c) →
      l.position < l'.position) ∧
    (∀ e : LocatedError, l.readToken.1 = .error (o.failure e) → (∃ c, e.cause = .noToken c) →
      ∀ k, (l'.readTokens k).1 = List.replicate k (l.readToken.1, l'.position)) ∧
    ((∀ tok, b.build tok = b.endOfFile → tok.isEndOfFile = true) →
      l.readToken.1 = .ok b.endOfFile →
        ∀ k, (l'.readTokens k).1 = List.replicate k (l.readToken.1, l'.position)) ∧
    ∃ (ts : List τ) (last : Except Failure τ),
      l.position + ts.length ≤ text.length ∧
      (l.readTokens (ts.length + 1)).1.map Prod.fst = ts.map .ok ++ [last] ∧
      (∀ t ∈ ts, b.isEndOfFile t = false) ∧ (∀ t, last = .ok t → b.isEndOfFile t = true) ∧
      l.toList = (last.map fun _ => ts, (l.readTokens (ts.length + 1)).2) ∧
      (l.finished = false →
        l.run.1.toExcept = (last.map fun _ => ts) ∧ l.run.1.tokens.map Prod.fst = ts ∧
          l.run.2.stream = (l.readTokens (ts.length + 1)).2.stream) := by
  intro start l l'
  have ho : l.plainly.Over o text := over_performAll (l := start) (over_plain o text) requests
  have hb : l.builder = b := (start.performAll_keeps requests).1
  obtain ⟨⟨r, ha⟩, -⟩ := exists_answers ho
  refine ⟨?_, ?_, ?_, ?_, ?_⟩
  · intro t ht hne
    obtain ⟨tok, rfl, rfl⟩ := ha.ok ht
    refine ha.advances ?_
    intro hs
    rw [l.builder.build_of_isEndOfFile hs, hb] at hne
    exact hne rfl
  · intro e he hne
    cases ha.error he
    refine ha.advances ?_
    intro hs
    obtain ⟨c, hc⟩ := stays_error_iff.1 hs
    exact hne c hc
  · intro e he hc
    cases ha.error he
    exact ha.repeats (stays_error_iff.2 hc)
  · intro hbuild he
    obtain ⟨tok, rfl, ht⟩ := ha.ok he
    rw [hb] at ht
    exact ha.repeats (hbuild tok ht.symm)
  · obtain ⟨ts, l₁, last, hy, hcalls⟩ := l.exists_calls
    obtain ⟨hle, ho₁⟩ := hy.position_le ho
    rw [hb] at hcalls
    exact ⟨ts, last, Nat.le_trans hle ho₁.position_le, hcalls⟩

/-- A text that ends and one that goes on with no token, each after one request. -/
theorem readToken_progress_texts :
    let l := ((plain {} ['a', ' ']).performAll [.readToken]).2
    let l' := ((plain {} ['a', ' ', '\\']).performAll [.next]).2
    let e : Failure := .reported ⟨.noToken '\\', 2, ""⟩
    (∀ tok, Token.builder.build tok = Token.builder.endOfFile → tok.isEndOfFile = true) ∧
    (l.readToken.1 = .ok ⟨"", .endOfFile⟩ ∧
      ∀ k, (l.readToken.2.readTokens k).1 = List.replicate k (.ok ⟨"", .endOfFile⟩, 2)) ∧
    (l'.readToken.1 = .error e ∧
      ∀ k, (l'.readToken.2.readTokens k).1 = List.replicate k (.error e, 2)) := by
  intro l l' e
  have hbuild : ∀ tok, Token.builder.build tok = Token.builder.endOfFile →
      tok.isEndOfFile = true := by
    rintro ⟨lexeme, value⟩ h
    cases value with
    | endOfFile => rfl
    | _ => cases h
  have hend : l.readToken.1 = .ok ⟨"", .endOfFile⟩ := by
    decide +kernel
  have hpos : l.readToken.2.position = 2 := by
    decide +kernel
  have herror : l'.readToken.1 = .error e := by
    decide +kernel
  have hpos' : l'.readToken.2.position = 2 := by
    decide +kernel
  obtain ⟨-, -, -, hagain, -⟩ := readToken_progress Token.builder {} ['a', ' '] [.readToken]
  obtain ⟨-, -, hagain', -⟩ := readToken_progress Token.builder {} ['a', ' ', '\\'] [.next]
  have hk := hagain hbuild hend
  have hk' := hagain' ⟨.noToken '\\', 2, ""⟩ herror ⟨'\\', rfl⟩
  refine ⟨hbuild, ⟨hend, ?_⟩, herror, ?_⟩
  · rw [← hpos, ← hend]
    exact hk
  · rw [← hpos', ← herror]
    exact hk'

end Lexer

end RewindLexer
