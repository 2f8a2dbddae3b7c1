import RewindLexer.Proofs.Lexer.Calls
import RewindLexer.Proofs.Stream.Excerpt

/-!
# Sources that are cut off

A lexer may never return if its source never ends. A call that does return has asked the source
finitely often, so it cannot tell it from one that has nothing more to give later on. A capped
source gives the first answers of another one and then nothing: an excerpt, open as long as there is
an answer left to give. Main statement: calls that leave an answer of their source unread give the
same answers under every greater cap, and without a cap if the source is finite.
-/

namespace RewindLexer

universe u v w

/-- A source that gives the answers of a function, one after the other, and never ends. -/
structure Endless (α : Type u) where
  answer : Nat → Option α
  asked : Nat

instance {α : Type u} : Source (Endless α) α where
  next s := (s.answer s.asked, ⟨s.answer, s.asked + 1⟩)

/-- The first `left` answers of a source, and nothing after them. -/
structure Capped (σ : Type u) where
  source : σ
  left : Nat

namespace Capped

variable {σ : Type u} {α : Type v}

/-- Asks the source, unless there is no answer left to give. -/
def next [Source σ α] : Capped σ → Option α × Capped σ
  | ⟨s, 0⟩ => (none, ⟨s, 0⟩)
  | ⟨s, n + 1⟩ => ((Source.next s).1, ⟨(Source.next s).2, n⟩)

instance [Source σ α] : FiniteSource (Capped σ) α where
  next := next
  remaining c := Source.items c.source c.left
  remaining_eq
    | ⟨_, 0⟩ => rfl
    | ⟨_, _ + 1⟩ => rfl

/-- Seen as an excerpt of the source under a greater cap. -/
def under (more : Nat) : Excerpt (Capped σ) (Capped σ) where
  isOpen c := 0 < c.left
  whole c := ⟨c.source, c.left + more⟩

/-- Seen as an excerpt of the source itself. -/
def uncapped : Excerpt (Capped σ) σ where
  isOpen c := 0 < c.left
  whole c := c.source

theorem agrees_under [Source σ α] (more : Nat) (c : Capped σ) :
    (under more).Agrees c (Source.next c) (Source.next ((under more).whole c)) := by
  obtain ⟨s, n⟩ := c
  intro ho
  cases n with
  | zero => cases ho
  | succ n =>
    refine ⟨Nat.succ_pos n, ?_⟩
    simp only [under, Nat.succ_add]
    rfl

theorem agrees_uncapped [Source σ α] (c : Capped σ) :
    uncapped.Agrees c (Source.next c) (Source.next (uncapped.whole c)) := by
  obtain ⟨s, n⟩ := c
  intro ho
  cases n with
  | zero => cases ho
  | succ n => exact ⟨Nat.succ_pos n, rfl⟩

end Capped

/-! ## From sources to tapes -/

namespace Excerpt

variable {σ : Type u} {σ' : Type v} {α : Type w} (E : Excerpt σ σ')

/-- The lookaheads on a source and on the whole of it. -/
def lookahead : Excerpt (Lookahead σ α) (Lookahead σ' α) where
  isOpen l := E.isOpen l.source
  whole l := ⟨l.ring, E.whole l.source⟩

/-- The tapes on a source and on the whole of it. -/
def tape : Excerpt (Tape σ) (Tape σ') where
  isOpen t := E.isOpen t.ahead.source
  whole t := { t with ahead := E.lookahead.whole t.ahead }

theorem source_whole (l : Lookahead σ α) : (E.lookahead.whole l).source = E.whole l.source :=
  rfl

theorem ahead_whole (t : Tape σ) : (E.tape.whole t).ahead = E.lookahead.whole t.ahead :=
  rfl

section

variable {E} [Source σ α] [Source σ' α]
  (h : ∀ s, E.Agrees s (Source.next s) (Source.next (E.whole s)))

include h

theorem agrees_pull (l : Lookahead σ α) (n : Nat) :
    E.lookahead.Agrees l (l.pull n) ((E.lookahead.whole l).pull n) := by
  fun_induction Lookahead.pull l n with
  | case1 l => exact .refl l true
  | case2 l n a source hn ih =>
    intro ho
    obtain ⟨h₁, he⟩ := ih ho
    obtain ⟨hs, hn'⟩ := (h l.source).of_eq hn h₁
    refine ⟨hs, ?_⟩
    rw [Lookahead.pull, source_whole, hn']
    exact he
  | case3 l n source hn =>
    intro ho
    obtain ⟨hs, hn'⟩ := (h l.source).of_eq hn ho
    refine ⟨hs, ?_⟩
    rw [Lookahead.pull, source_whole, hn']
    rfl

theorem agrees_fill (l : Lookahead σ α) (n : Nat) :
    E.lookahead.Agrees l (l.fill n) ((E.lookahead.whole l).fill n) :=
  agrees_pull h l _

theorem agrees_lookAt (l : Lookahead σ α) (enough n : Nat) :
    E.lookahead.Agrees l (l.lookAt enough n) ((E.lookahead.whole l).lookAt enough n) := by
  intro ho
  cases hf : l.fill enough with
  | mk full l₁ =>
    have hl : (l.lookAt enough n).2 = l₁ := by
      rw [Lookahead.lookAt, hf]
      cases full <;> rfl
    rw [hl] at ho
    obtain ⟨hs, hf'⟩ := (agrees_fill h l enough).of_eq hf ho
    refine ⟨hs, ?_⟩
    rw [Lookahead.lookAt, Lookahead.lookAt, hf, hf']
    cases full <;> rfl

theorem agrees_next (l : Lookahead σ α) :
    E.lookahead.Agrees l l.next (E.lookahead.whole l).next := by
  intro ho
  cases hp : l.ring.popFront with
  | mk answer ring =>
    have hp' : (E.lookahead.whole l).ring.popFront = (answer, ring) := hp
    simp only [Lookahead.next, hp, hp'] at ho ⊢
    cases answer with
    | ok a => exact ⟨ho, rfl⟩
    | error e =>
      obtain ⟨hs, hn'⟩ := h l.source ho
      refine ⟨hs, ?_⟩
      dsimp only
      rw [source_whole, hn']
      rfl

theorem agrees_spellsFrom [BEq α] (l : Lookahead σ α) (n : Nat) (items : List α) :
    E.lookahead.Agrees l (l.spellsFrom n items) ((E.lookahead.whole l).spellsFrom n items) := by
  induction items generalizing l n with
  | nil => exact .refl l true
  | cons a items ih =>
    intro ho
    cases hl : l.lookAt (n + 1) n with
    | mk answer l₁ =>
      simp only [Lookahead.spellsFrom, hl] at ho ⊢
      split at ho
      · rename_i ha
        obtain ⟨h₁, he⟩ := ih l₁ (n + 1) ho
        obtain ⟨hs, hl'⟩ := (agrees_lookAt h l (n + 1) n).of_eq hl h₁
        refine ⟨hs, ?_⟩
        simp only [hl', if_pos ha]
        exact he
      · rename_i ha
        obtain ⟨hs, hl'⟩ := (agrees_lookAt h l (n + 1) n).of_eq hl ho
        exact ⟨hs, by simp only [hl', if_neg ha]⟩

end

/-- A look ahead from a tape. -/
theorem agrees_looked {β : Type} {t : Tape σ} {x : β × Lookahead σ Char}
    {x' : β × Lookahead σ' Char} (h : E.lookahead.Agrees t.ahead x x') :
    E.tape.Agrees t (x.1, { t with ahead := x.2 })
      (x'.1, { E.tape.whole t with ahead := x'.2 }) := by
  intro ho
  obtain ⟨hs, he⟩ := h ho
  exact ⟨hs, by rw [he]; rfl⟩

/-- An excerpt of a source makes an excerpt of the tape over it. -/
theorem faithful_tape {E : Excerpt σ σ'} [Source σ Char] [Source σ' Char]
    (h : ∀ s, E.Agrees s (Source.next s) (Source.next (E.whole s))) : E.tape.Faithful where
  hasNext t := E.agrees_looked (agrees_fill h t.ahead 1)
  peek t := E.agrees_looked (agrees_lookAt h t.ahead 1 0)
  isNext t c := (E.agrees_looked (agrees_lookAt h t.ahead 1 0)).then
    fun answer t => .refl t (answer == some c)
  isNextList t text := E.agrees_looked (agrees_spellsFrom h t.ahead 0 text)
  next t := by
    intro ho
    cases hn : t.ahead.next with
    | mk answer ahead =>
      simp only [CharStream.next, Tape.next, hn] at ho ⊢
      cases answer with
      | some _ | none =>
        obtain ⟨hs, hn'⟩ := (agrees_next h t.ahead).of_eq hn ho
        simp only [ahead_whole, hn']
        exact ⟨hs, rfl⟩
  nextD t d := by
    intro ho
    cases hn : t.ahead.next with
    | mk answer ahead =>
      simp only [CharStream.nextD, Tape.nextD, hn] at ho ⊢
      cases answer with
      | some _ | none =>
        obtain ⟨hs, hn'⟩ := (agrees_next h t.ahead).of_eq hn ho
        simp only [ahead_whole, hn']
        exact ⟨hs, rfl⟩
  unread t c := by
    obtain ⟨ahead, recording, log, endCount, position⟩ := t
    cases recording with
    | false => exact fun ho => ⟨ho, rfl⟩
    | true =>
      cases log with
      | nil => exact fun ho => ⟨ho, rfl⟩
      | cons d log =>
        by_cases hd : d = c
        · simp only [CharStream.unread, Tape.unread, tape, if_pos hd]
          exact fun ho => ⟨ho, rfl⟩
        · simp only [CharStream.unread, Tape.unread, tape, if_neg hd]
          exact fun ho => ⟨ho, rfl⟩
  backUp t := by
    obtain ⟨ahead, recording, log, endCount, position⟩ := t
    cases endCount with
    | succ n => exact fun ho => ⟨ho, rfl⟩
    | zero =>
      cases log with
      | nil => exact fun ho => ⟨ho, rfl⟩
      | cons c log => exact fun ho => ⟨ho, rfl⟩
  startRecording t ho := ⟨ho, rfl⟩
  stopRecording t ho := ⟨ho, rfl⟩
  isRecording _ := rfl
  position _ := rfl

end Excerpt

/-! ## Lexers -/

namespace Lexer

section

variable {τ : Type} {S : Type u} {S' : Type v} [FiniteStream S] [FiniteStream S']
  {E : Excerpt S S'} (h : E.Faithful)

/-- The lexer on the whole of a stream. -/
def whole (E : Excerpt S S') (l : Lexer τ S) : Lexer τ S' where
  builder := l.builder
  stream := E.whole l.stream
  options := l.options
  finished := l.finished

include h

theorem agrees_locate (cause : LexError) (s : S) :
    E.Agrees s (locate cause s) (locate cause (E.whole s)) := by
  unfold locate
  rw [h.isRecording, h.position]
  split
  · intro ho
    obtain ⟨hs, he⟩ := h.stopRecording s ho
    refine ⟨hs, ?_⟩
    rw [he]
    dsimp only
    rw [h.position]
  · exact .refl s _

/-- A call that leaves the excerpt open does the same on the whole. -/
theorem readToken_whole (l : Lexer τ S) (ho : E.isOpen l.readToken.2.stream) :
    E.isOpen l.stream ∧ (l.whole E).readToken = (l.readToken.1, l.readToken.2.whole E) := by
  cases hs : scan l.builder l.options l.stream with
  | mk answer s =>
    cases answer with
    | ok t =>
      simp only [readToken, hs] at ho ⊢
      obtain ⟨h₀, hs'⟩ := (h.scan l.builder l.options l.stream).of_eq hs ho
      exact ⟨h₀, by simp only [whole, hs']⟩
    | error cause =>
      simp only [readToken, hs] at ho ⊢
      obtain ⟨h₁, hl⟩ := agrees_locate h cause s ho
      obtain ⟨h₀, hs'⟩ := (h.scan l.builder l.options l.stream).of_eq hs h₁
      exact ⟨h₀, by simp only [whole, hs', hl]⟩

/-- So do any number of calls. -/
theorem readTokens_whole (l : Lexer τ S) (n : Nat) (ho : E.isOpen (l.readTokens n).2.stream) :
    E.isOpen l.stream ∧
      (l.whole E).readTokens n = ((l.readTokens n).1, (l.readTokens n).2.whole E) := by
  induction n generalizing l with
  | zero => exact ⟨ho, rfl⟩
  | succ n ih =>
    simp only [readTokens] at ho ⊢
    obtain ⟨h₁, hrest⟩ := ih l.readToken.2 ho
    obtain ⟨h₀, hcall⟩ := readToken_whole h l h₁
    have hposition : (l.readToken.2.whole E).position = l.readToken.2.position := h.position _
    rw [hcall]
    dsimp only
    rw [hrest, hposition]
    exact ⟨h₀, rfl⟩

end

/-- A lexer of the first `k` answers of the source of a tape. -/
def capped {τ : Type} {σ : Type u} (b : TokenBuilder τ) (o : Options) (t : Tape σ) (k : Nat) :
    Lexer τ (Tape (Capped σ)) where
  builder := b
  stream := { t with ahead := ⟨t.ahead.ring, ⟨t.ahead.source, k⟩⟩ }
  options := o

section

variable {τ : Type} {σ : Type u} {b : TokenBuilder τ} {o : Options} {t : Tape σ} {k n : Nat}

/-- Answers of the source that the calls have not asked for make no difference to them. -/
theorem readTokens_capped_add [Source σ Char]
    (h : 0 < ((capped b o t k).readTokens n).2.stream.ahead.source.left) (more : Nat) :
    ((capped b o t (k + more)).readTokens n).1 = ((capped b o t k).readTokens n).1 := by
  have hw := readTokens_whole (Excerpt.faithful_tape (Capped.agrees_under more))
    (capped b o t k) n h
  show (((capped b o t k).whole (Capped.under more).tape).readTokens n).1 = _
  rw [hw.2]

/-- On a finite source the calls are those of the lexer without a cap. -/
theorem readTokens_capped [FiniteSource σ Char]
    (h : 0 < ((capped b o t k).readTokens n).2.stream.ahead.source.left) :
    (({ builder := b, stream := t, options := o } : Lexer τ (Tape σ)).readTokens n).1 =
      ((capped b o t k).readTokens n).1 := by
  have hw := readTokens_whole (Excerpt.faithful_tape Capped.agrees_uncapped) (capped b o t k) n h
  show (((capped b o t k).whole Capped.uncapped.tape).readTokens n).1 = _
  rw [hw.2]

end

end Lexer

end RewindLexer
