import RewindLexer.Proofs.Lexer.Iteration

/-!
# Raising the entity limit

The limit is compared with the length of an entity in one place, which fails at once if the entity
is too long. So a greater limit changes nothing before the smaller one has been exceeded: every
reader, from the inside of an entity up to a whole token, either does the same or has failed with a
malformed escape. Main statement: two lexers that differ in their entity limits only answer the same
until the one with the smaller limit answers a malformed escape, for every finite stream and every
builder.
-/

namespace RewindLexer

universe u

/-! ## Malformed escapes -/

/-- Whether a failure is that of an entity that is too long. -/
def LexError.isMalformedEscape : LexError → Bool
  | .malformedEscape _ => true
  | _ => false

/-- What has gone wrong, whether it is reported or ends the run. -/
def Failure.located : Failure → LocatedError
  | .reported e | .aborted e => e

@[simp]
theorem Options.located_failure (o : Options) (e : LocatedError) : (o.failure e).located = e := by
  unfold failure
  split <;> rfl

/-- Whether a call has met an entity that is too long. -/
def isMalformed {τ : Type} : Except Failure τ → Bool
  | .ok _ => false
  | .error e => e.located.cause.isMalformedEscape

/-! ## Outcomes under a tighter limit -/

section

variable {S : Type u} {α β : Type}

/-- What a step gives under a tighter limit: the same as under the wider one, or the failure of an
entity that is too long. -/
def Tightens (x x' : Except LexError α × S) : Prop :=
  x = x' ∨ ∃ body s, x = (.error (.malformedEscape body), s)

namespace Tightens

variable {s : S} {a : α} {e : LexError} {x x' : Except LexError α × S}

theorem refl (x : Except LexError α × S) : Tightens x x :=
  .inl rfl

theorem of_ok (h : Tightens x x') (hx : x = (.ok a, s)) : x' = (.ok a, s) := by
  rcases h with h | ⟨body, s₁, h⟩
  · rw [← h, hx]
  · rw [h] at hx
    cases hx

theorem of_error (h : Tightens x x') (hx : x = (.error e, s)) :
    x' = (.error e, s) ∨ ∃ body, e = .malformedEscape body := by
  rcases h with h | ⟨body, s₁, h⟩
  · exact .inl (h.symm.trans hx)
  · rw [h] at hx
    cases hx
    exact .inr ⟨body, rfl⟩

theorem bind {x x' : Scan S α} {f f' : α → Scan S β} (h : Tightens (x s) (x' s))
    (hf : ∀ a s₁, Tightens (f a s₁) (f' a s₁)) : Tightens ((x >>= f) s) ((x' >>= f') s) := by
  cases hx : x s with
  | mk answer s₁ =>
    cases answer with
    | ok a =>
      rw [Scan.bind_eq_of_ok hx, Scan.bind_eq_of_ok (h.of_ok hx)]
      exact hf a s₁
    | error e =>
      rw [Scan.bind_eq_of_error hx]
      rcases h.of_error hx with hx' | ⟨body, rfl⟩
      · exact .inl (Scan.bind_eq_of_error hx').symm
      · exact .inr ⟨body, s₁, rfl⟩

/-- That a quote is missing is said of the end of the input only. -/
theorem closing {x x' : Scan S α} (quote : Char) (h : Tightens (x s) (x' s)) :
    Tightens (Scan.mapError (RewindLexer.closing quote) x s)
      (Scan.mapError (RewindLexer.closing quote) x' s) := by
  rcases h with h | ⟨body, s₁, h⟩
  · exact .inl (by simp only [Scan.mapError, h])
  · exact .inr ⟨body, s₁, Scan.mapError_eq_of_error h⟩

end Tightens

end

/-! ## Readers -/

section

open CharStream FiniteStream

variable {S : Type u} [FiniteStream S] {τ : Type} {limit limit' : Nat}

theorem tightens_entityBody (h : limit ≤ limit') (body : List Char) (s : S) :
    Tightens (entityBody limit body s) (entityBody limit' body s) := by
  fun_induction entityBody limit body s with
  | case1 body s e s₁ hn =>
    rw [entityBody_eq limit', hn]
    exact .refl _
  | case2 body s s₁ hn =>
    simp only [entityBody_eq limit' body s, hn, if_true]
    exact .refl _
  | case3 body s c s₁ hn hc hl => exact .inr ⟨_, s₁, rfl⟩
  | case4 body s c s₁ hn hc hl ih =>
    have hl' : ¬limit' < (c :: body).length := fun hlt => hl (Nat.lt_of_le_of_lt h hlt)
    simp only [entityBody_eq limit' body s, hn, if_neg hc, if_neg hl']
    exact ih

theorem tightens_readEntity (h : limit ≤ limit') (s : S) :
    Tightens (readEntity limit s) (readEntity limit' s) := by
  refine (tightens_entityBody h [] s).bind ?_
  intro body s₁
  exact .refl _

theorem tightens_readEscape (h : limit ≤ limit') (s : S) :
    Tightens (readEscape limit s) (readEscape limit' s) := by
  fun_induction readEscape limit s with
  | case1 s e s₁ hn =>
    rw [readEscape_eq limit', hn]
    exact .refl _
  | case2 s s₁ s₂ hi hn ih =>
    simp only [readEscape_eq limit' s, hn, hi, if_true]
    exact ih
  | case3 s s₁ s₂ hi hn =>
    simp only [readEscape_eq limit' s, hn, hi, if_true]
    exact tightens_readEntity h s₂
  | case4 s c s₁ hn hc =>
    simp only [readEscape_eq limit' s, hn, if_neg hc]
    exact .refl _

theorem tightens_stringItem (h : limit ≤ limit') (c : Char) (s : S) :
    Tightens (stringItem limit c s) (stringItem limit' c s) := by
  unfold stringItem
  split
  · exact tightens_readEscape h s
  · exact .refl _

theorem tightens_stringBody (h : limit ≤ limit') (quote : Char) (s : S) :
    Tightens (stringBody limit quote s) (stringBody limit' quote s) := by
  fun_induction stringBody limit quote s with
  | case1 s e s₁ hn =>
    rw [stringBody_eq limit', hn]
    exact .refl _
  | case2 s s₁ hn =>
    simp only [stringBody_eq limit' quote s, hn, if_true]
    exact .refl _
  | case3 s c s₁ hn hq e s₂ hi =>
    rcases (tightens_stringItem h c s₁).of_error hi with hi' | ⟨body, rfl⟩
    · simp only [stringBody_eq limit' quote s, hn, if_neg hq, hi']
      exact .refl _
    · exact .inr ⟨body, s₂, rfl⟩
  | case4 s c s₁ hn hq d s₂ hi e s₃ hb ih =>
    have hi' := (tightens_stringItem h c s₁).of_ok hi
    rcases ih.of_error hb with hb' | ⟨body, rfl⟩
    · simp only [stringBody_eq limit' quote s, hn, if_neg hq, hi', hb']
      exact .refl _
    · exact .inr ⟨body, s₃, rfl⟩
  | case5 s c s₁ hn hq d s₂ hi text s₃ hb ih =>
    have hi' := (tightens_stringItem h c s₁).of_ok hi
    have hb' := ih.of_ok hb
    simp only [stringBody_eq limit' quote s, hn, if_neg hq, hi', hb']
    exact .refl _

theorem tightens_gatherString (b : TokenBuilder τ) (h : limit ≤ limit') (s : S) :
    Tightens (gatherString b limit s) (gatherString b limit' s) := by
  simp only [gatherString, Scan.bind_act]
  refine (Tightens.refl _).bind ?_
  intro quote s₁
  split
  · refine ((tightens_stringBody h quote s₁).closing quote).bind ?_
    intro value s₂
    exact .refl _
  · exact .refl _

theorem tightens_gather (b : TokenBuilder τ) {o : Options} (h : o.maxEntityLength ≤ limit)
    (c : Char) (s : S) :
    Tightens (gather b o c s) (gather b { o with maxEntityLength := limit } c s) := by
  unfold gather
  split
  · exact .refl _
  split
  · exact tightens_gatherString b h s
  · exact .refl _

theorem tightens_scan (b : TokenBuilder τ) {o : Options} (h : o.maxEntityLength ≤ limit) (s : S) :
    Tightens (scan b o s) (scan b { o with maxEntityLength := limit } s) := by
  refine (Tightens.refl _).bind ?_
  intro _ s₁
  simp only [Scan.bind_ask]
  split
  · exact tightens_gather b h _ _
  · exact .refl _

end

/-! ## Lexers -/

namespace Lexer

variable {τ : Type} {S : Type u} [FiniteStream S] {limit : Nat}

/-- The lexer with another entity limit. -/
def withLimit (l : Lexer τ S) (limit : Nat) : Lexer τ S :=
  { l with options := { l.options with maxEntityLength := limit } }

/-- A greater limit changes a call only if the call fails with a malformed escape. -/
theorem readToken_withLimit {l : Lexer τ S} (h : l.options.maxEntityLength ≤ limit)
    (hm : isMalformed l.readToken.1 = false) :
    (l.withLimit limit).readToken = (l.readToken.1, l.readToken.2.withLimit limit) := by
  rcases tightens_scan l.builder h l.stream with hs | ⟨body, s, hs⟩
  · simp only [readToken, withLimit, ← hs]
    split <;> rfl
  · have hcause : isMalformed l.readToken.1 = true := by
      simp only [readToken, hs, locate]
      split <;> simp [isMalformed, LexError.isMalformedEscape]
    rw [hcause] at hm
    cases hm

/-- Two lexers that differ in their entity limits only answer the same, at the same positions, until
the one with the smaller limit answers a malformed escape. If it never does, the greater limit
changes nothing, for the calls made and for the lexer after them. -/
theorem readTokens_raised_limit (l : Lexer τ S) (h : l.options.maxEntityLength ≤ limit) (n : Nat) :
    (l.readTokens n).1.takeWhile (fun p => !isMalformed p.1) <+:
        ((l.withLimit limit).readTokens n).1 ∧
      ((∀ p ∈ (l.readTokens n).1, isMalformed p.1 = false) →
        (l.withLimit limit).readTokens n =
          ((l.readTokens n).1, (l.readTokens n).2.withLimit limit)) := by
  induction n generalizing l with
  | zero => exact ⟨List.prefix_rfl, fun _ => rfl⟩
  | succ n ih =>
    simp only [readTokens]
    cases hm : isMalformed l.readToken.1 with
    | true =>
      constructor
      · rw [List.takeWhile_cons_of_neg (by simp [hm])]
        exact List.nil_prefix
      · intro hall
        have hfirst := hall _ List.mem_cons_self
        rw [hm] at hfirst
        cases hfirst
    | false =>
      have hl : l.readToken.2.options.maxEntityLength ≤ limit := by
        rw [readToken_snd]
        exact h
      obtain ⟨hagree, heq⟩ := ih l.readToken.2 hl
      rw [readToken_withLimit h hm]
      constructor
      · rw [List.takeWhile_cons_of_pos (by simp [hm])]
        exact (List.prefix_cons_inj _).2 hagree
      · intro hall
        rw [heq fun p hp => hall p (List.mem_cons_of_mem _ hp)]
        rfl

/-- Two characters are too few for `amp`, three are enough. -/
theorem readTokens_raised_limit_amp :
    let tight := plain { maxEntityLength := 2 } ['a', '"', '\\', '&', 'a', 'm', 'p', ';', '"']
    let ample := tight.withLimit 3
    tight.options.maxEntityLength ≤ 3 ∧ ample.options.maxEntityLength ≤ 32 ∧
      (tight.readTokens 2).1 =
        [(.ok ⟨"a", .name "a"⟩, 1),
          (.error (.reported ⟨.malformedEscape "amp", 7, "\"\\&amp"⟩), 7)] ∧
      (ample.readTokens 2).1 =
        [(.ok ⟨"a", .name "a"⟩, 1), (.ok ⟨"\"\\&amp;\"", .string "&" '"'⟩, 9)] ∧
      (tight.readTokens 2).1.takeWhile (fun p => !isMalformed p.1) <+: (ample.readTokens 2).1 ∧
      (∀ p ∈ (ample.readTokens 2).1, isMalformed p.1 = false) ∧
      (ample.withLimit 32).readTokens 2 =
        ((ample.readTokens 2).1, (ample.readTokens 2).2.withLimit 32) := by
  intro tight ample
  have hall : ∀ p ∈ (ample.readTokens 2).1, isMalformed p.1 = false := by decide +kernel
  exact ⟨by decide, by decide, by decide +kernel, by decide +kernel,
    (readTokens_raised_limit tight (by decide) 2).1, hall,
    (readTokens_raised_limit ample (by decide) 2).2 hall⟩

end Lexer

end RewindLexer
