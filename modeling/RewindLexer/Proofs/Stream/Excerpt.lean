import RewindLexer.Proofs.Stream.Alike

/-!
# Excerpts of streams

An excerpt goes on like the whole that it is taken from for as long as it is open, and once closed
it stays closed. A step that leaves the excerpt open has therefore only met what is in the whole
too, and does the same there. Main statement: `scan` does the same on the whole if it leaves the
excerpt open, whatever the tokens are made by.
-/

namespace RewindLexer

open CharStream FiniteStream Text

universe u v w z

/-- When something is open, and the whole from which it is taken. -/
structure Excerpt (S : Type u) (S' : Type v) where
  isOpen : S → Prop
  whole : S → S'

namespace Excerpt

variable {S : Type u} {S' : Type v} {E : Excerpt S S'}

/-! ## Steps that agree -/

section

variable {s s₁ : S} {t' : S'}

variable (E) in
/-- From `s` a step has led to `t`, and from the whole to `t'`: if the excerpt is open now, it was
open before, and the same has happened to the whole. -/
def Leads (s t : S) (t' : S') : Prop :=
  E.isOpen t → E.isOpen s ∧ t' = E.whole t

variable (E) in
/-- The same of steps that give an answer. -/
def Agrees {α : Type w} (s : S) (x : α × S) (x' : α × S') : Prop :=
  E.isOpen x.2 → E.isOpen s ∧ x' = (x.1, E.whole x.2)

theorem Agrees.refl {α : Type w} (s : S) (a : α) : E.Agrees s (a, s) (a, E.whole s) :=
  fun ho => ⟨ho, rfl⟩

theorem Agrees.leads {α : Type w} {x : α × S} {x' : α × S'} (h : E.Agrees s x x') :
    E.Leads s x.2 x'.2 :=
  fun ho => ⟨(h ho).1, congrArg Prod.snd (h ho).2⟩

theorem Agrees.of_eq {α : Type w} {x : α × S} {x' : α × S'} {a : α} (h : E.Agrees s x x')
    (hx : x = (a, s₁)) (ho : E.isOpen s₁) : E.isOpen s ∧ x' = (a, E.whole s₁) := by
  subst hx
  exact h ho

theorem Leads.trans {s₂ : S} {f' : S' → S'} (h : E.Leads s s₁ t')
    (h' : E.Leads s₁ s₂ (f' (E.whole s₁))) : E.Leads s s₂ (f' t') := by
  intro ho
  obtain ⟨h₁, he⟩ := h' ho
  obtain ⟨hs, ht⟩ := h h₁
  exact ⟨hs, by rw [ht, he]⟩

theorem Leads.agrees {α : Type w} {x : α × S} {f' : S' → α × S'} (h : E.Leads s s₁ t')
    (h' : E.Agrees s₁ x (f' (E.whole s₁))) : E.Agrees s x (f' t') := by
  intro ho
  obtain ⟨h₁, he⟩ := h' ho
  obtain ⟨hs, ht⟩ := h h₁
  exact ⟨hs, by rw [ht, he]⟩

theorem Agrees.then {α : Type w} {β : Type z} {x : α × S} {x' : α × S'} {f : α → S → β × S}
    {f' : α → S' → β × S'} (h : E.Agrees s x x')
    (hf : ∀ a s₁, E.Agrees s₁ (f a s₁) (f' a (E.whole s₁))) :
    E.Agrees s (f x.1 x.2) (f' x'.1 x'.2) := by
  intro ho
  obtain ⟨h₁, he⟩ := hf x.1 x.2 ho
  obtain ⟨hs, hx⟩ := h h₁
  exact ⟨hs, by rw [hx, he]⟩

variable {α β : Type}

theorem Leads.act {f : S → S} {f' : S' → S'} (h : E.Leads s (f s) (f' (E.whole s))) :
    E.Agrees s (Scan.act f s) (Scan.act f' (E.whole s)) := by
  intro ho
  obtain ⟨hs, he⟩ := h ho
  exact ⟨hs, by rw [Scan.act, he]; rfl⟩

theorem Agrees.ask {f : S → α × S} {f' : S' → α × S'} (h : E.Agrees s (f s) (f' (E.whole s))) :
    E.Agrees s (Scan.ask f s) (Scan.ask f' (E.whole s)) := by
  intro ho
  obtain ⟨hs, he⟩ := h ho
  exact ⟨hs, by rw [Scan.ask, he]; rfl⟩

theorem Agrees.bind {x : Scan S α} {x' : Scan S' α} {f : α → Scan S β} {f' : α → Scan S' β}
    (h : E.Agrees s (x s) (x' (E.whole s)))
    (hf : ∀ a s₁, E.Agrees s₁ (f a s₁) (f' a (E.whole s₁))) :
    E.Agrees s ((x >>= f) s) ((x' >>= f') (E.whole s)) := by
  intro ho
  cases hx : x s with
  | mk answer s₁ =>
    cases answer with
    | ok a =>
      rw [Scan.bind_eq_of_ok hx] at ho ⊢
      obtain ⟨h₁, he⟩ := hf a s₁ ho
      obtain ⟨hs, hx'⟩ := h.of_eq hx h₁
      exact ⟨hs, (Scan.bind_eq_of_ok hx').trans he⟩
    | error e =>
      rw [Scan.bind_eq_of_error hx] at ho ⊢
      obtain ⟨hs, hx'⟩ := h.of_eq hx ho
      exact ⟨hs, Scan.bind_eq_of_error hx'⟩

theorem Agrees.mapError {x : Scan S α} {x' : Scan S' α} (f : LexError → LexError)
    (h : E.Agrees s (x s) (x' (E.whole s))) :
    E.Agrees s (Scan.mapError f x s) (Scan.mapError f x' (E.whole s)) := by
  intro ho
  cases hx : x s with
  | mk answer s₁ =>
    cases answer with
    | ok a =>
      rw [Scan.mapError_eq_of_ok hx] at ho ⊢
      obtain ⟨hs, hx'⟩ := h.of_eq hx ho
      exact ⟨hs, Scan.mapError_eq_of_ok hx'⟩
    | error e =>
      rw [Scan.mapError_eq_of_error hx] at ho ⊢
      obtain ⟨hs, hx'⟩ := h.of_eq hx ho
      exact ⟨hs, Scan.mapError_eq_of_error hx'⟩

end

/-! ## Faithful excerpts -/

/-- Whatever is asked of the excerpt agrees with the whole. -/
structure Faithful [CharStream S] [CharStream S'] (E : Excerpt S S') : Prop where
  hasNext (s : S) : E.Agrees s (CharStream.hasNext s) (CharStream.hasNext (E.whole s))
  next (s : S) : E.Agrees s (CharStream.next s) (CharStream.next (E.whole s))
  nextD (s : S) (c : Char) : E.Agrees s (CharStream.nextD s c) (CharStream.nextD (E.whole s) c)
  unread (s : S) (c : Char) : E.Agrees s (CharStream.unread s c) (CharStream.unread (E.whole s) c)
  backUp (s : S) : E.Agrees s (CharStream.backUp s) (CharStream.backUp (E.whole s))
  peek (s : S) : E.Agrees s (CharStream.peek s) (CharStream.peek (E.whole s))
  isNext (s : S) (c : Char) : E.Agrees s (CharStream.isNext s c) (CharStream.isNext (E.whole s) c)
  isNextList (s : S) (text : List Char) :
    E.Agrees s (CharStream.isNextList s text) (CharStream.isNextList (E.whole s) text)
  startRecording (s : S) :
    E.Leads s (CharStream.startRecording s) (CharStream.startRecording (E.whole s))
  stopRecording (s : S) :
    E.Agrees s (CharStream.stopRecording s) (CharStream.stopRecording (E.whole s))
  isRecording (s : S) : CharStream.isRecording (E.whole s) = CharStream.isRecording s
  position (s : S) : CharStream.position (E.whole s) = CharStream.position s

namespace Faithful

variable [FiniteStream S] [FiniteStream S'] (h : E.Faithful)

include h

theorem skip (s : S) : E.Leads s (CharStream.skip s) (CharStream.skip (E.whole s)) :=
  (h.nextD s '\x00').leads

theorem peekD (s : S) (c : Char) :
    E.Agrees s (CharStream.peekD s c) (CharStream.peekD (E.whole s) c) :=
  (h.peek s).then fun answer s₁ => .refl s₁ (answer.getD c)

/-! ## Blanks and comments -/

theorem skipLine (s : S) : E.Leads s (skipLine s) (skipLine (E.whole s)) := by
  fun_induction RewindLexer.skipLine s with
  | case1 s e s₁ hn =>
    intro ho
    obtain ⟨hs, hn'⟩ := (h.next s).of_eq hn ho
    exact ⟨hs, by rw [skipLine_eq, hn']⟩
  | case2 s c s₁ hn hc =>
    intro ho
    obtain ⟨hs, hn'⟩ := (h.next s).of_eq hn ho
    exact ⟨hs, by simp only [skipLine_eq (E.whole s), hn', if_pos hc]⟩
  | case3 s c s₁ hn hc ih =>
    intro ho
    obtain ⟨h₁, he⟩ := ih ho
    obtain ⟨hs, hn'⟩ := (h.next s).of_eq hn h₁
    refine ⟨hs, ?_⟩
    simp only [skipLine_eq (E.whole s), hn', if_neg hc]
    exact he

theorem skipComment (s : S) : E.Leads s (skipComment s) (skipComment (E.whole s)) :=
  ((h.skip s).trans (h.skip _)).trans (h.skipLine _)

theorem opensComment (c : Char) (s : S) :
    E.Agrees s (opensComment c s) (opensComment c (E.whole s)) := by
  unfold RewindLexer.opensComment
  split
  · exact h.isNextList s _
  · exact .refl s false

theorem skipTrivia (s : S) : E.Agrees s (skipTrivia s) (skipTrivia (E.whole s)) := by
  fun_induction RewindLexer.skipTrivia s with
  | case1 s s₁ hn =>
    intro ho
    obtain ⟨hs, hn'⟩ := (h.hasNext s).of_eq hn ho
    exact ⟨hs, by rw [skipTrivia_eq, hn']⟩
  | case2 s s₁ hn e s₂ hnext =>
    intro ho
    obtain ⟨h₁, hnext'⟩ := (h.next s₁).of_eq hnext ho
    obtain ⟨hs, hn'⟩ := (h.hasNext s).of_eq hn h₁
    exact ⟨hs, by simp only [skipTrivia_eq (E.whole s), hn', hnext']⟩
  | case3 s s₁ hn c s₂ hnext s₃ hopens ih =>
    intro ho
    obtain ⟨h₃, he⟩ := (h.skipComment s₃).agrees ih ho
    obtain ⟨h₂, hopens'⟩ := (h.opensComment c s₂).of_eq hopens h₃
    obtain ⟨h₁, hnext'⟩ := (h.next s₁).of_eq hnext h₂
    obtain ⟨hs, hn'⟩ := (h.hasNext s).of_eq hn h₁
    refine ⟨hs, ?_⟩
    simp only [skipTrivia_eq (E.whole s), hn', hnext', hopens']
    exact he
  | case4 s s₁ hn c s₂ hnext s₃ hopens hc ih =>
    intro ho
    obtain ⟨h₃, he⟩ := ih ho
    obtain ⟨h₂, hopens'⟩ := (h.opensComment c s₂).of_eq hopens h₃
    obtain ⟨h₁, hnext'⟩ := (h.next s₁).of_eq hnext h₂
    obtain ⟨hs, hn'⟩ := (h.hasNext s).of_eq hn h₁
    refine ⟨hs, ?_⟩
    simp only [skipTrivia_eq (E.whole s), hn', hnext', hopens', if_pos hc]
    exact he
  | case5 s s₁ hn c s₂ hnext s₃ hopens hc =>
    intro ho
    obtain ⟨h₃, he⟩ := h.unread s₃ c ho
    obtain ⟨h₂, hopens'⟩ := (h.opensComment c s₂).of_eq hopens h₃
    obtain ⟨h₁, hnext'⟩ := (h.next s₁).of_eq hnext h₂
    obtain ⟨hs, hn'⟩ := (h.hasNext s).of_eq hn h₁
    refine ⟨hs, ?_⟩
    simp only [skipTrivia_eq (E.whole s), hn', hnext', hopens', if_neg hc]
    exact he

/-! ## Runs -/

theorem takeRun (p : Char → Bool) (s : S) :
    E.Agrees s (takeRun p s) (takeRun p (E.whole s)) := by
  fun_induction RewindLexer.takeRun p s with
  | case1 s s₁ hn =>
    intro ho
    obtain ⟨hs, hn'⟩ := (h.hasNext s).of_eq hn ho
    exact ⟨hs, by rw [takeRun_eq, hn']⟩
  | case2 s s₁ hn e s₂ hnext =>
    intro ho
    obtain ⟨h₁, hnext'⟩ := (h.next s₁).of_eq hnext ho
    obtain ⟨hs, hn'⟩ := (h.hasNext s).of_eq hn h₁
    exact ⟨hs, by simp only [takeRun_eq p (E.whole s), hn', hnext']⟩
  | case3 s s₁ hn c s₂ hnext hc ih =>
    intro ho
    obtain ⟨h₂, he⟩ := ih ho
    obtain ⟨h₁, hnext'⟩ := (h.next s₁).of_eq hnext h₂
    obtain ⟨hs, hn'⟩ := (h.hasNext s).of_eq hn h₁
    refine ⟨hs, ?_⟩
    simp only [takeRun_eq p (E.whole s), hn', hnext', if_pos hc]
    exact he
  | case4 s s₁ hn c s₂ hnext hc =>
    intro ho
    obtain ⟨h₂, he⟩ := h.unread s₂ c ho
    obtain ⟨h₁, hnext'⟩ := (h.next s₁).of_eq hnext h₂
    obtain ⟨hs, hn'⟩ := (h.hasNext s).of_eq hn h₁
    refine ⟨hs, ?_⟩
    simp only [takeRun_eq p (E.whole s), hn', hnext', if_neg hc]
    exact he

theorem takeDigits (s : S) : E.Leads s (takeDigits s) (takeDigits (E.whole s)) := by
  fun_induction RewindLexer.takeDigits s with
  | case1 s c s₁ hn hc ih =>
    intro ho
    obtain ⟨h₁, he⟩ := ih ho
    obtain ⟨hs, hn'⟩ := (h.nextD s '\x00').of_eq hn h₁
    refine ⟨hs, ?_⟩
    simp only [takeDigits_eq (E.whole s), hn', if_pos hc]
    exact he
  | case2 s c s₁ hn hc =>
    intro ho
    obtain ⟨hs, hn'⟩ := (h.nextD s '\x00').of_eq hn ho
    exact ⟨hs, by simp only [takeDigits_eq (E.whole s), hn', if_neg hc]⟩

/-! ## The inside of strings -/

theorem entityBody (limit : Nat) (body : List Char) (s : S) :
    E.Agrees s (entityBody limit body s) (entityBody limit body (E.whole s)) := by
  fun_induction RewindLexer.entityBody limit body s with
  | case1 body s e s₁ hn =>
    intro ho
    obtain ⟨hs, hn'⟩ := (h.next s).of_eq hn ho
    exact ⟨hs, by rw [entityBody_eq, hn']⟩
  | case2 body s s₁ hn =>
    intro ho
    obtain ⟨hs, hn'⟩ := (h.next s).of_eq hn ho
    exact ⟨hs, by simp only [entityBody_eq limit body (E.whole s), hn', if_true]⟩
  | case3 body s c s₁ hn hc hl =>
    intro ho
    obtain ⟨hs, hn'⟩ := (h.next s).of_eq hn ho
    exact ⟨hs, by simp only [entityBody_eq limit body (E.whole s), hn', if_neg hc, if_pos hl]⟩
  | case4 body s c s₁ hn hc hl ih =>
    intro ho
    obtain ⟨h₁, he⟩ := ih ho
    obtain ⟨hs, hn'⟩ := (h.next s).of_eq hn h₁
    refine ⟨hs, ?_⟩
    simp only [entityBody_eq limit body (E.whole s), hn', if_neg hc, if_neg hl]
    exact he

theorem readEntity (limit : Nat) (s : S) :
    E.Agrees s (readEntity limit s) (readEntity limit (E.whole s)) := by
  refine (h.entityBody limit [] s).bind ?_
  intro body s₁
  exact .refl s₁ _

theorem readEscape (limit : Nat) (s : S) :
    E.Agrees s (readEscape limit s) (readEscape limit (E.whole s)) := by
  fun_induction RewindLexer.readEscape limit s with
  | case1 s e s₁ hn =>
    intro ho
    obtain ⟨hs, hn'⟩ := (h.next s).of_eq hn ho
    exact ⟨hs, by rw [readEscape_eq, hn']⟩
  | case2 s s₁ s₂ hi hn ih =>
    intro ho
    obtain ⟨h₂, he⟩ := (h.skip s₂).agrees ih ho
    obtain ⟨h₁, hi'⟩ := (h.isNext s₁ '\\').of_eq hi h₂
    obtain ⟨hs, hn'⟩ := (h.next s).of_eq hn h₁
    refine ⟨hs, ?_⟩
    simp only [readEscape_eq limit (E.whole s), hn', hi', if_true]
    exact he
  | case3 s s₁ s₂ hi hn =>
    intro ho
    obtain ⟨h₂, he⟩ := h.readEntity limit s₂ ho
    obtain ⟨h₁, hi'⟩ := (h.isNext s₁ '\\').of_eq hi h₂
    obtain ⟨hs, hn'⟩ := (h.next s).of_eq hn h₁
    refine ⟨hs, ?_⟩
    simp only [readEscape_eq limit (E.whole s), hn', hi', if_true]
    exact he
  | case4 s c s₁ hn hc =>
    intro ho
    obtain ⟨hs, hn'⟩ := (h.next s).of_eq hn ho
    exact ⟨hs, by simp only [readEscape_eq limit (E.whole s), hn', if_neg hc]⟩

theorem stringItem (limit : Nat) (c : Char) (s : S) :
    E.Agrees s (stringItem limit c s) (stringItem limit c (E.whole s)) := by
  unfold RewindLexer.stringItem
  split
  · exact h.readEscape limit s
  · exact .refl s _

theorem stringBody (limit : Nat) (quote : Char) (s : S) :
    E.Agrees s (stringBody limit quote s) (stringBody limit quote (E.whole s)) := by
  fun_induction RewindLexer.stringBody limit quote s with
  | case1 s e s₁ hn =>
    intro ho
    obtain ⟨hs, hn'⟩ := (h.next s).of_eq hn ho
    exact ⟨hs, by rw [stringBody_eq, hn']⟩
  | case2 s s₁ hn =>
    intro ho
    obtain ⟨hs, hn'⟩ := (h.next s).of_eq hn ho
    exact ⟨hs, by simp only [stringBody_eq limit quote (E.whole s), hn', if_true]⟩
  | case3 s c s₁ hn hq e s₂ hi =>
    intro ho
    obtain ⟨h₁, hi'⟩ := (h.stringItem limit c s₁).of_eq hi ho
    obtain ⟨hs, hn'⟩ := (h.next s).of_eq hn h₁
    exact ⟨hs, by simp only [stringBody_eq limit quote (E.whole s), hn', if_neg hq, hi']⟩
  | case4 s c s₁ hn hq d s₂ hi e s₃ hb ih =>
    intro ho
    obtain ⟨h₂, hb'⟩ := ih.of_eq hb ho
    obtain ⟨h₁, hi'⟩ := (h.stringItem limit c s₁).of_eq hi h₂
    obtain ⟨hs, hn'⟩ := (h.next s).of_eq hn h₁
    refine ⟨hs, ?_⟩
    simp only [stringBody_eq limit quote (E.whole s), hn', if_neg hq, hi', hb']
    rfl
  | case5 s c s₁ hn hq d s₂ hi text s₃ hb ih =>
    intro ho
    obtain ⟨h₂, hb'⟩ := ih.of_eq hb ho
    obtain ⟨h₁, hi'⟩ := (h.stringItem limit c s₁).of_eq hi h₂
    obtain ⟨hs, hn'⟩ := (h.next s).of_eq hn h₁
    refine ⟨hs, ?_⟩
    simp only [stringBody_eq limit quote (E.whole s), hn', if_neg hq, hi', hb']
    rfl

/-! ## Kinds of tokens -/

variable {τ : Type} (b : TokenBuilder τ)

theorem start (s : S) :
    E.Agrees s (Scan.act CharStream.startRecording s)
      (Scan.act CharStream.startRecording (E.whole s)) :=
  (h.startRecording s).act

theorem stop (s : S) :
    E.Agrees s (Scan.ask CharStream.stopRecording s)
      (Scan.ask CharStream.stopRecording (E.whole s)) :=
  (h.stopRecording s).ask

theorem gatherName (s : S) : E.Agrees s (gatherName b s) (gatherName b (E.whole s)) := by
  refine (h.start s).bind fun _ s₁ => (h.takeRun isNameChar s₁).bind fun _ s₂ =>
    (h.stop s₂).bind fun lexeme s₃ => ?_
  split
  · exact .refl s₃ _
  · exact .refl s₃ _

theorem gatherString (limit : Nat) (s : S) :
    E.Agrees s (gatherString b limit s) (gatherString b limit (E.whole s)) := by
  refine (h.start s).bind fun _ s₁ => (h.next s₁).bind fun quote s₂ => ?_
  split
  · refine ((h.stringBody limit quote s₂).mapError (closing quote)).bind fun value s₃ =>
      (h.stop s₃).bind fun lexeme s₄ => ?_
    exact .refl s₄ _
  · exact .refl s₂ _

theorem gatherInteger (s : S) :
    E.Agrees s (gatherInteger b s) (gatherInteger b (E.whole s)) := by
  refine (h.start s).bind fun _ s₁ => (h.next s₁).bind fun _ s₂ => ?_
  refine (h.takeDigits s₂).agrees
    ((h.backUp _).bind fun _ s₃ => (h.stop s₃).bind fun lexeme s₄ => ?_)
  cases Numeral.int64? lexeme with
  | some value => exact .refl s₄ _
  | none => exact .refl s₄ _

theorem gatherChar (s : S) : E.Agrees s (gatherChar b s) (gatherChar b (E.whole s)) :=
  (h.start s).bind fun _ s₁ => (h.next s₁).bind fun _ s₂ => (h.stop s₂).bind fun _ s₃ => .refl s₃ _

theorem gatherSymbol (s : S) : E.Agrees s (gatherSymbol b s) (gatherSymbol b (E.whole s)) :=
  (h.start s).bind fun _ s₁ => (h.next s₁).bind fun _ s₂ => (h.takeRun isSign s₂).bind fun _ s₃ =>
    (h.stop s₃).bind fun _ s₄ => .refl s₄ _

theorem gather (o : Options) (c : Char) (s : S) :
    E.Agrees s (gather b o c s) (gather b o c (E.whole s)) := by
  unfold RewindLexer.gather
  split
  · exact h.gatherName b s
  split
  · exact h.gatherString b o.maxEntityLength s
  split
  · exact h.gatherInteger b s
  split
  · exact h.gatherChar b s
  split
  · exact h.gatherSymbol b s
  · exact .refl s _

theorem scan (o : Options) (s : S) : E.Agrees s (scan b o s) (scan b o (E.whole s)) := by
  refine (h.skipTrivia s).bind fun _ s₁ => (h.hasNext s₁).ask.bind fun more s₂ => ?_
  split
  · exact (h.peekD s₂ '\x00').ask.bind fun c s₃ => h.gather b o c s₃
  · exact .refl s₂ _

end Faithful

end Excerpt

end RewindLexer
