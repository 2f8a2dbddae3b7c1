import RewindLexer.Proofs.Lookahead.Sequence
import RewindLexer.Proofs.Tape.Window

/-!
# Tapes that cannot be told apart

Two tapes resemble each other if the same input is left on both and they agree in their record,
their counts and their position; they may differ in how much of the input already waits in the
lookahead. Main statement: over sources that stay at their end such tapes give the same answers to
the same moves, and go on to resemble each other.
-/

namespace RewindLexer

universe u

theorem Lookahead.prepended_inj {α : Type u} {a : α} {V W : List α → Prop}
    (h : Prepended a V = Prepended a W) : V = W := by
  funext text
  have ht := congrFun h (a :: text)
  simpa [Prepended] using ht

namespace Tape

variable {σ : Type u} [Source σ Char] {t t' t'' : Tape σ}

/-! ## Tapes over sources that stay at their end -/

/-- The lookahead is sound, and its source stays at its end. -/
structure Steady (t : Tape σ) : Prop where
  sound : t.ahead.Sound
  fused : Source.Fused t.ahead.source

theorem Steady.step (h : t.Steady) (hm : t.Moves t') : t'.Steady := by
  refine ⟨hm.sound h.sound, ?_⟩
  cases hm with
  | looked endCount hm => exact hm.fused h.fused
  | consumed hm => exact hm.fused h.fused
  | undone hl => exact h.fused
  | handedBack c hr => exact h.fused

theorem Steady.move (h : t.Steady) (m : Move) : (t.move m).Steady :=
  h.step (moves_move h.sound m)

theorem Steady.run (h : t.Steady) (moves : List Move) : (moves.foldl Tape.move t).Steady := by
  induction moves generalizing t with
  | nil => exact h
  | cons m moves ih => exact ih (h.move m)

theorem Steady.perform (h : t.Steady) (op : Op) : (t.perform op).Steady := by
  cases op with
  | move m => exact h.move m
  | startRecording => exact ⟨h.sound, h.fused⟩
  | stopRecording => exact ⟨h.sound, h.fused⟩

theorem steady_reached {source : σ} (hs : Source.Fused source)
    (before : List (Lookahead.Op Char)) (history : List Op) :
    (reached source before history).Steady := by
  have hfold : ∀ t : Tape σ, t.Steady → (history.foldl Tape.perform t).Steady := by
    induction history with
    | nil =>
      intro t h
      exact h
    | cons op history ih =>
      intro t h
      exact ih _ (h.perform op)
  exact hfold _ ⟨Lookahead.sound_reached source before, Lookahead.fused_reached hs before⟩

/-! ## Tapes that cannot be told apart -/

/-- The same input is left on both tapes, and they agree in all else but what already waits in the
lookahead. -/
structure Resembles (t t' : Tape σ) : Prop where
  offers : t'.ahead.Offers = t.ahead.Offers
  recording : t'.recording = t.recording
  log : t'.log = t.log
  endCount : t'.endCount = t.endCount
  position : t'.position = t.position

theorem Resembles.refl (t : Tape σ) : t.Resembles t :=
  ⟨rfl, rfl, rfl, rfl, rfl⟩

theorem Resembles.trans (h : t.Resembles t') (h' : t'.Resembles t'') : t.Resembles t'' where
  offers := h'.offers.trans h.offers
  recording := h'.recording.trans h.recording
  log := h'.log.trans h.log
  endCount := h'.endCount.trans h.endCount
  position := h'.position.trans h.position

theorem Resembles.symm (h : t.Resembles t') : t'.Resembles t :=
  ⟨h.offers.symm, h.recording.symm, h.log.symm, h.endCount.symm, h.position.symm⟩

theorem resembles_of_moved {ahead : Lookahead σ Char} (hm : t.ahead.Moved [] ahead) :
    t.Resembles { t with ahead := ahead } :=
  ⟨hm.offers_eq, rfl, rfl, rfl, rfl⟩

theorem Resembles.looked (h : t.Resembles t') {ahead ahead' : Lookahead σ Char}
    (hm : t.ahead.Moved [] ahead) (hm' : t'.ahead.Moved [] ahead') :
    Resembles { t with ahead := ahead } { t' with ahead := ahead' } :=
  ((resembles_of_moved hm).symm.trans h).trans (resembles_of_moved hm')

theorem Resembles.consumed (h : t.Resembles t') {ahead ahead' : Lookahead σ Char}
    (ho : ahead'.Offers = ahead.Offers) (c : Char) :
    (t.consumed c ahead).Resembles (t'.consumed c ahead') where
  offers := ho
  recording := h.recording
  log := by
    show (if t'.recording then c :: t'.log else t'.log) = if t.recording then c :: t.log else t.log
    rw [h.recording, h.log]
  endCount := h.endCount
  position := congrArg (· + 1) h.position

theorem Resembles.putBack (h : t.Resembles t') (hs : t.ahead.Sound) (hs' : t'.ahead.Sound)
    (c : Char) (log : List Char) : (t.putBack c log).Resembles (t'.putBack c log) where
  offers := by
    show (t'.ahead.unread c).Offers = (t.ahead.unread c).Offers
    rw [Lookahead.offers_unread hs', Lookahead.offers_unread hs, h.offers]
  recording := h.recording
  log := rfl
  endCount := h.endCount
  position := congrArg (· - 1) h.position

theorem Resembles.backUp (h : t.Resembles t') (hs : t.ahead.Sound) (hs' : t'.ahead.Sound) :
    t'.backUp.1 = t.backUp.1 ∧ t.backUp.2.Resembles t'.backUp.2 := by
  rw [Tape.backUp, Tape.backUp, h.endCount, h.log]
  cases hn : t.endCount with
  | succ n => exact ⟨rfl, h.offers, h.recording, rfl, rfl, h.position⟩
  | zero =>
    cases hl : t.log with
    | nil => exact ⟨rfl, h⟩
    | cons c log => exact ⟨rfl, h.putBack hs hs' c log⟩

theorem Resembles.unread (h : t.Resembles t') (hs : t.ahead.Sound) (hs' : t'.ahead.Sound)
    (c : Char) : (t'.unread c).1 = (t.unread c).1 ∧ (t.unread c).2.Resembles (t'.unread c).2 := by
  rw [Tape.unread, Tape.unread, h.recording, h.log]
  split
  · split
    · exact ⟨rfl, h⟩
    · split
      · exact ⟨rfl, h.putBack hs hs' c _⟩
      · exact ⟨rfl, h⟩
  · exact ⟨rfl, h.putBack hs hs' c _⟩

/-! ## Answers -/

/-- What a move answers. -/
inductive Reply where
  | done
  | truth (b : Bool)
  | char (c : Char)
  | found (c : Option Char)
  | read (r : Except LexError Char)
  | status (r : Except LexError Unit)
  deriving DecidableEq

def reply (t : Tape σ) : Move → Reply
  | .hasNext => .truth t.hasNext.1
  | .next => .read t.next.1
  | .nextD default => .char (t.nextD default).1
  | .skip => .done
  | .unread c => .status (t.unread c).1
  | .backUp => .status t.backUp.1
  | .peek => .found t.peek.1
  | .peekD default => .char (t.peekD default).1
  | .isNext c => .truth (t.isNext c).1
  | .isNextList text => .truth (t.isNextList text).1

/-- What moves answer, one after the other. -/
def replies (t : Tape σ) : List Move → List Reply
  | [] => []
  | m :: moves => t.reply m :: replies (t.move m) moves

section

variable (h : t.Resembles t') (hs : t.Steady) (hs' : t'.Steady)

include h hs hs'

/-- Both lookaheads hand out the same, and the same is left behind it. -/
theorem Resembles.next_eq :
    ∃ r ahead ahead', t.ahead.next = (r, ahead) ∧ t'.ahead.next = (r, ahead') ∧
      ahead'.Offers = ahead.Offers := by
  have hm := Lookahead.moved_next hs.sound
  have hm' := Lookahead.moved_next hs'.sound
  have ha : t'.ahead.next.1 = t.ahead.next.1 := by
    ext c
    rw [hs'.sound.next_iff hs'.fused, h.offers, hs.sound.next_iff hs.fused]
  refine ⟨t.ahead.next.1, t.ahead.next.2, t'.ahead.next.2, rfl, Prod.ext ha rfl, ?_⟩
  rw [ha] at hm'
  cases hn : t.ahead.next.1 with
  | none =>
    rw [hn] at hm hm'
    rw [hm'.offers_eq, hm.offers_eq, h.offers]
  | some c =>
    rw [hn] at hm hm'
    apply Lookahead.prepended_inj (a := c)
    rw [← hm'.offers_cons, ← hm.offers_cons, h.offers]

theorem Resembles.next : t'.next.1 = t.next.1 ∧ t.next.2.Resembles t'.next.2 := by
  obtain ⟨r, ahead, ahead', hn, hn', ho⟩ := h.next_eq hs hs'
  rw [Tape.next, Tape.next, hn, hn']
  cases r with
  | none => exact ⟨rfl, ho, h.recording, h.log, h.endCount, h.position⟩
  | some c => exact ⟨rfl, h.consumed ho c⟩

theorem Resembles.nextD (d : Char) :
    (t'.nextD d).1 = (t.nextD d).1 ∧ (t.nextD d).2.Resembles (t'.nextD d).2 := by
  obtain ⟨r, ahead, ahead', hn, hn', ho⟩ := h.next_eq hs hs'
  rw [Tape.nextD, Tape.nextD, hn, hn']
  cases r with
  | none =>
    exact ⟨rfl, ho, h.recording, h.log, congrArg (· + 1) h.endCount, h.position⟩
  | some c => exact ⟨rfl, h.consumed ho c⟩

theorem Resembles.peek_eq : t'.peek.1 = t.peek.1 := by
  show t'.ahead.peek.1 = t.ahead.peek.1
  ext c
  rw [hs'.sound.peek_iff hs'.fused, h.offers, hs.sound.peek_iff hs.fused]

/-- Tapes that resemble each other answer alike and go on to resemble each other. -/
theorem Resembles.move (m : Move) :
    t'.reply m = t.reply m ∧ (t.move m).Resembles (t'.move m) := by
  have hpeek := h.looked (Lookahead.moved_peekNth hs.sound 0) (Lookahead.moved_peekNth hs'.sound 0)
  cases m with
  | hasNext =>
    refine ⟨congrArg Reply.truth ?_, ?_⟩
    · rw [Bool.eq_iff_iff]
      show t'.ahead.hasNext.1 = true ↔ t.ahead.hasNext.1 = true
      rw [hs'.sound.hasNext_iff hs'.fused, h.offers, hs.sound.hasNext_iff hs.fused]
    · exact h.looked (Lookahead.moved_fill hs.sound 1) (Lookahead.moved_fill hs'.sound 1)
  | next =>
    obtain ⟨ha, hr⟩ := h.next hs hs'
    exact ⟨congrArg Reply.read ha, hr⟩
  | nextD d =>
    obtain ⟨ha, hr⟩ := h.nextD hs hs' d
    exact ⟨congrArg Reply.char ha, hr⟩
  | skip => exact ⟨rfl, (h.nextD hs hs' '\x00').2⟩
  | unread c =>
    obtain ⟨ha, hr⟩ := h.unread hs.sound hs'.sound c
    exact ⟨congrArg Reply.status ha, hr⟩
  | backUp =>
    obtain ⟨ha, hr⟩ := h.backUp hs.sound hs'.sound
    exact ⟨congrArg Reply.status ha, hr⟩
  | peek => exact ⟨congrArg Reply.found (h.peek_eq hs hs'), hpeek⟩
  | peekD d =>
    refine ⟨congrArg Reply.char ?_, hpeek⟩
    exact congrArg (Option.getD · d) (h.peek_eq hs hs')
  | isNext c =>
    refine ⟨congrArg Reply.truth ?_, hpeek⟩
    exact congrArg (· == some c) (h.peek_eq hs hs')
  | isNextList text =>
    refine ⟨congrArg Reply.truth ?_, ?_⟩
    · rw [Bool.eq_iff_iff]
      show (t'.ahead.isNextList text).1 = true ↔ (t.ahead.isNextList text).1 = true
      rw [hs'.sound.isNextList_iff hs'.fused, h.offers, hs.sound.isNextList_iff hs.fused]
    · exact h.looked (Lookahead.moved_spellsFrom hs.sound 0 text)
        (Lookahead.moved_spellsFrom hs'.sound 0 text)

theorem Resembles.run (moves : List Move) :
    t'.replies moves = t.replies moves ∧
      (moves.foldl Tape.move t).Resembles (moves.foldl Tape.move t') := by
  induction moves generalizing t t' with
  | nil => exact ⟨rfl, h⟩
  | cons m moves ih =>
    obtain ⟨ha, hr⟩ := h.move hs hs' m
    obtain ⟨has, hrs⟩ := ih hr (hs.move m) (hs'.move m)
    exact ⟨by rw [replies, replies, ha, has], hrs⟩

end

end Tape

end RewindLexer
