import RewindLexer.Proofs.Lookahead.Moves
import RewindLexer.Tape

/-!
# Recording windows

A window is what happens between the start of a recording and its end. Main statement: in a window
the recorded text, followed by all that can still be consumed, stays the same, and the position
moves with the length of the recorded text; outside of windows nothing is recorded and nothing can
be undone. This holds for every source and for every history of a tape.
-/

namespace RewindLexer.Tape

universe u

variable {σ : Type u} {t t' t₀ : Tape σ}

/-! ## The record -/

theorem recorded_of_log {c : Char} {log : List Char} (h : t.log = c :: log) :
    t.recorded = log.reverse ++ [c] := by
  rw [recorded, h, List.reverse_cons]

theorem recorded_consumed (h : t.recording = true) (c : Char) (ahead : Lookahead σ Char) :
    (t.consumed c ahead).recorded = t.recorded ++ [c] := by
  rw [recorded, consumed, if_pos h, List.reverse_cons, recorded]

/-- A tape that has nothing to undo unless it records. -/
structure Tidy (t : Tape σ) : Prop where
  sound : t.ahead.Sound
  log : t.recording = false → t.log = []

theorem Tidy.backUp (h : t.Tidy) (hr : t.recording = false) :
    t.backUp.2.ahead = t.ahead ∧ t.backUp.2.position = t.position := by
  rw [Tape.backUp]
  split
  · exact ⟨rfl, rfl⟩
  · rw [h.log hr]
    exact ⟨rfl, rfl⟩

/-! ## Histories -/

/-- Something that can be asked of a tape in a window or outside. -/
inductive Move where
  | hasNext
  | next
  | nextD (default : Char)
  | skip
  | unread (c : Char)
  | backUp
  | peek
  | peekD (default : Char)
  | isNext (c : Char)
  | isNextList (text : List Char)

inductive Op where
  | move (m : Move)
  | startRecording
  | stopRecording

variable [Source σ Char]

def move (t : Tape σ) : Move → Tape σ
  | .hasNext => t.hasNext.2
  | .next => t.next.2
  | .nextD default => (t.nextD default).2
  | .skip => t.skip
  | .unread c => (t.unread c).2
  | .backUp => t.backUp.2
  | .peek => t.peek.2
  | .peekD default => (t.peekD default).2
  | .isNext c => (t.isNext c).2
  | .isNextList text => (t.isNextList text).2

def perform (t : Tape σ) : Op → Tape σ
  | .move m => t.move m
  | .startRecording => t.startRecording
  | .stopRecording => t.stopRecording.2

/-- The tape that a history leads to. It starts with a lookahead that may have a history too. -/
def reached (source : σ) (before : List (Lookahead.Op Char)) (history : List Op) : Tape σ :=
  history.foldl perform { ahead := Lookahead.reached source before }

/-- The recorded text, followed by all that can still be consumed, begins with `text`. -/
def Begins (t : Tape σ) (text : List Char) : Prop :=
  ∃ n, text <+: t.recorded ++ t.ahead.upTo n

/-! ## One move -/

/-- What a move does to a tape. -/
inductive Moves (t : Tape σ) : Tape σ → Prop where
  /-- Nothing is consumed or put back. -/
  | looked {ahead : Lookahead σ Char} (endCount : Nat) (h : t.ahead.Moved [] ahead) :
    Moves t { t with ahead := ahead, endCount := endCount }
  | consumed {c : Char} {ahead : Lookahead σ Char} (h : t.ahead.Moved [c] ahead) :
    Moves t (t.consumed c ahead)
  /-- The character recorded last is put back. -/
  | undone {c : Char} {log : List Char} (h : t.log = c :: log) : Moves t (t.putBack c log)
  /-- Outside of a window any character may be put in front. -/
  | handedBack (c : Char) (h : t.recording = false) : Moves t (t.putBack c t.log)

theorem moves_next (h : t.ahead.Sound) : t.Moves t.next.2 := by
  have hm := Lookahead.moved_next h
  rw [next]
  split
  · rename_i c ahead ha
    rw [ha] at hm
    exact .consumed hm
  · rename_i ahead ha
    rw [ha] at hm
    exact .looked t.endCount hm

theorem moves_nextD (h : t.ahead.Sound) (default : Char) : t.Moves (t.nextD default).2 := by
  have hm := Lookahead.moved_next h
  rw [nextD]
  split
  · rename_i c ahead ha
    rw [ha] at hm
    exact .consumed hm
  · rename_i ahead ha
    rw [ha] at hm
    exact .looked (t.endCount + 1) hm

theorem moves_unread (h : t.ahead.Sound) (c : Char) : t.Moves (t.unread c).2 := by
  have hsame : t.Moves t := .looked t.endCount (.refl h)
  rw [unread]
  split
  · split
    · exact hsame
    · rename_i d log hl
      split
      · rename_i hd
        subst hd
        exact .undone hl
      · exact hsame
  · rename_i hr
    exact .handedBack c (by simpa using hr)

theorem moves_backUp (h : t.ahead.Sound) : t.Moves t.backUp.2 := by
  rw [backUp]
  split
  · rename_i n hn
    exact .looked n (.refl h)
  · split
    · exact .looked t.endCount (.refl h)
    · rename_i c log hl
      exact .undone hl

theorem moves_move (h : t.ahead.Sound) (m : Move) : t.Moves (t.move m) := by
  cases m with
  | hasNext => exact .looked t.endCount (Lookahead.moved_fill h 1)
  | next => exact moves_next h
  | nextD default => exact moves_nextD h default
  | skip => exact moves_nextD h '\x00'
  | unread c => exact moves_unread h c
  | backUp => exact moves_backUp h
  | peek => exact .looked t.endCount (Lookahead.moved_peekNth h 0)
  | peekD default => exact .looked t.endCount (Lookahead.moved_peekNth h 0)
  | isNext c => exact .looked t.endCount (Lookahead.moved_peekNth h 0)
  | isNextList text => exact .looked t.endCount (Lookahead.moved_spellsFrom h 0 text)

/-! ## Inside a window -/

/-- The tape `t` is in the window that `t₀` opens. -/
structure Window (t₀ t : Tape σ) : Prop where
  recording : t.recording = true
  moved : t₀.ahead.Moved t.recorded t.ahead
  position : t.position = t₀.position + t.recorded.length

theorem window_startRecording (h : t.ahead.Sound) : Window t.startRecording t.startRecording where
  recording := rfl
  moved := .refl h
  position := rfl

theorem Window.step (h : Window t₀ t) (hm : t.Moves t') : Window t₀ t' := by
  cases hm with
  | @looked ahead endCount hm =>
    refine ⟨h.recording, ?_, h.position⟩
    have htrans := h.moved.trans hm
    rw [List.append_nil] at htrans
    exact htrans
  | @consumed c ahead hm =>
    have hrec := recorded_consumed h.recording c ahead
    refine ⟨h.recording, ?_, ?_⟩
    · rw [hrec]
      exact h.moved.trans hm
    · rw [hrec, List.length_append, ← Nat.add_assoc, ← h.position]
      rfl
  | @undone c log hl =>
    have hrec := recorded_of_log hl
    have hmoved := h.moved
    have hpos := h.position
    rw [hrec] at hmoved hpos
    refine ⟨h.recording, hmoved.unread, ?_⟩
    rw [List.length_append] at hpos
    show t.position - 1 = t₀.position + log.reverse.length
    rw [hpos, List.length_singleton, ← Nat.add_assoc, Nat.add_sub_cancel]
  | handedBack c hr =>
    -- In a window only what is recorded can be put back.
    rw [h.recording] at hr
    cases hr

theorem Window.run (h : Window t₀ t) (moves : List Move) : Window t₀ (moves.foldl move t) := by
  induction moves generalizing t with
  | nil => exact h
  | cons m moves ih => exact ih (h.step (moves_move h.moved.sound m))

/-! ## Outside of windows -/

theorem Moves.sound (hm : t.Moves t') (h : t.ahead.Sound) : t'.ahead.Sound := by
  cases hm with
  | looked endCount hm => exact hm.sound
  | consumed hm => exact hm.sound
  | undone hl => exact (Lookahead.unread_of_sound h _).1
  | handedBack c hr => exact (Lookahead.unread_of_sound h _).1

theorem Tidy.step (h : t.Tidy) (hm : t.Moves t') : t'.Tidy := by
  refine ⟨hm.sound h.sound, ?_⟩
  cases hm with
  | looked endCount hm => exact h.log
  | consumed hm =>
    intro hr
    have hr : t.recording = false := hr
    show (if t.recording then _ else t.log) = []
    rw [hr]
    exact h.log hr
  | undone hl =>
    -- Without a recording there is no character to undo.
    intro hr
    rw [h.log hr] at hl
    cases hl
  | handedBack c hr =>
    intro _
    exact h.log hr

theorem Tidy.perform (h : t.Tidy) (op : Op) : (t.perform op).Tidy := by
  cases op with
  | move m => exact h.step (moves_move h.sound m)
  | startRecording => exact ⟨h.sound, fun hr => by cases hr⟩
  | stopRecording => exact ⟨h.sound, fun _ => rfl⟩

theorem tidy_reached (source : σ) (before : List (Lookahead.Op Char)) (history : List Op) :
    (reached source before history).Tidy := by
  have hfold : ∀ t : Tape σ, t.Tidy → (history.foldl Tape.perform t).Tidy := by
    induction history with
    | nil =>
      intro t h
      exact h
    | cons op history ih =>
      intro t h
      exact ih _ (h.perform op)
  exact hfold _ ⟨Lookahead.sound_reached source before, fun _ => rfl⟩

/-! ## Windows -/

/-- For every source and every history: outside of a window nothing is recorded, and undoing puts
nothing back. Inside of one, whatever moves have been made, what is recorded and all that can still
be consumed is what could be consumed at its start, and the position has moved over what is
recorded; so the end of the recording gives what has been consumed since, and not put back. -/
theorem recording_window (source : σ) (before : List (Lookahead.Op Char)) (history : List Op) :
    let t := reached source before history
    let t₀ := t.startRecording
    (t.recording = false →
      t.recorded = [] ∧ t.backUp.2.ahead = t.ahead ∧ t.backUp.2.position = t.position) ∧
    ∀ moves : List Move,
      let t₁ := moves.foldl move t₀
      let stopped := t₁.stopRecording
      t₁.recording = true ∧
      (∀ text, t₁.Begins text ↔ t₀.Begins text) ∧
      t₁.position = t₀.position + t₁.recorded.length ∧
      (∀ rest, t₀.ahead.Offers (stopped.1 ++ rest) ↔ stopped.2.ahead.Offers rest) ∧
      stopped.2.position = t₀.position + stopped.1.length := by
  intro t t₀
  have htidy : t.Tidy := tidy_reached source before history
  refine ⟨?_, ?_⟩
  · intro hr
    refine ⟨?_, htidy.backUp hr⟩
    rw [recorded, htidy.log hr, List.reverse_nil]
  · intro moves t₁ stopped
    have hw : Window t₀ t₁ := (window_startRecording htidy.sound).run moves
    refine ⟨hw.recording, ?_, hw.position, ?_, hw.position⟩
    · intro text
      exact hw.moved.offers_iff text
    · intro rest
      rw [← hw.moved.offers_iff]
      exact exists_congr fun n => List.prefix_append_right_inj t₁.recorded

theorem recording_window_gap :
    let t := reached (⟨[some 'a', none, some 'b']⟩ : Script Char) [.unread 'z']
      [.startRecording, .move .next, .stopRecording]
    let t₁ := [Move.next, .nextD '?', .unread 'x', .next, .backUp, .backUp].foldl move
      t.startRecording
    t.recording = false ∧ t.recorded = [] ∧ t.backUp.2.position = 1 ∧
      t₁.recorded = ['a'] ∧ t₁.position = 2 ∧
      (∀ text, t₁.Begins text ↔ t.startRecording.Begins text) ∧
      ∀ rest, t.startRecording.ahead.Offers ('a' :: rest) ↔ t₁.ahead.Offers rest := by
  intro t t₁
  have hr : t.recording = false := rfl
  have ht₁ : t₁.recorded = ['a'] := by decide +kernel
  obtain ⟨hout, hin⟩ := recording_window (⟨[some 'a', none, some 'b']⟩ : Script Char) [.unread 'z']
    [.startRecording, .move .next, .stopRecording]
  obtain ⟨hrec, -, hpos⟩ := hout hr
  obtain ⟨-, hbegins, hpos₁, hoffers, -⟩ :=
    hin [Move.next, .nextD '?', .unread 'x', .next, .backUp, .backUp]
  refine ⟨hr, hrec, hpos, ht₁, ?_, hbegins, ?_⟩
  · rw [hpos₁, ht₁]
    rfl
  · intro rest
    have ho : t.startRecording.ahead.Offers (t₁.recorded ++ rest) ↔ t₁.ahead.Offers rest :=
      hoffers rest
    rw [ht₁] at ho
    exact ho

end RewindLexer.Tape
