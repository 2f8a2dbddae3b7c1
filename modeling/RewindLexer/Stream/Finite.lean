import RewindLexer.Stream.Basic

/-!
# Finite streams

A finite stream has a gauge, which bounds what can still be consumed. Consuming a character runs the
gauge down, putting one back raises it by one at most, and looking ahead does not raise it. While a
recording goes on, what is consumed and what is recorded balance.
-/

namespace RewindLexer

universe u

/-- How much a stream has in store. -/
structure Gauge where
  /-- A bound on the number of characters that can still be consumed. -/
  waiting : Nat
  /-- The number of characters recorded. -/
  taped : Nat
  recording : Bool

namespace Gauge

/-- Nothing has been consumed or put back. -/
structure Settled (g g' : Gauge) : Prop where
  waiting : g'.waiting ≤ g.waiting
  taped : g'.taped = g.taped
  recording : g'.recording = g.recording

/-- A character has been consumed. -/
structure Advanced (g g' : Gauge) : Prop where
  waiting : g'.waiting < g.waiting
  taped : g.recording = true → g'.taped = g.taped + 1
  recording : g'.recording = g.recording

/-- A character has been put back. -/
structure Returned (g g' : Gauge) : Prop where
  waiting : g'.waiting ≤ g.waiting + 1
  taped : g.recording = true → g.taped = g'.taped + 1
  recording : g'.recording = g.recording

/-- While a recording goes on, what is consumed is recorded and what is put back is removed from
the record. -/
structure Balanced (g g' : Gauge) : Prop where
  recording : g'.recording = true
  total : g'.waiting + g'.taped ≤ g.waiting + g.taped

theorem Balanced.trans {g₁ g₂ g₃ : Gauge} (h : g₁.Balanced g₂) (h' : g₂.Balanced g₃) :
    g₁.Balanced g₃ :=
  ⟨h'.recording, Nat.le_trans h'.total h.total⟩

theorem Settled.balanced {g g' : Gauge} (h : g.Settled g') (hr : g.recording = true) :
    g.Balanced g' :=
  ⟨h.recording.trans hr, by have := h.waiting; have := h.taped; omega⟩

theorem Advanced.balanced {g g' : Gauge} (h : g.Advanced g') (hr : g.recording = true) :
    g.Balanced g' :=
  ⟨h.recording.trans hr, by have := h.waiting; have := h.taped hr; omega⟩

theorem Returned.balanced {g g' : Gauge} (h : g.Returned g') (hr : g.recording = true) :
    g.Balanced g' :=
  ⟨h.recording.trans hr, by have := h.waiting; have := h.taped hr; omega⟩

end Gauge

/-- A stream whose gauge runs down as characters are consumed. -/
class FiniteStream (S : Type u) extends CharStream S where
  gauge : S → Gauge
  settled_hasNext (s : S) : (gauge s).Settled (gauge (hasNext s).2)
  settled_peek (s : S) : (gauge s).Settled (gauge (peek s).2)
  settled_isNext (s : S) (c : Char) : (gauge s).Settled (gauge (isNext s c).2)
  settled_isNextList (s : S) (text : List Char) : (gauge s).Settled (gauge (isNextList s text).2)
  advanced_next {s : S} {c : Char} : (next s).1 = .ok c → (gauge s).Advanced (gauge (next s).2)
  settled_next {s : S} {e : LexError} : (next s).1 = .error e → (gauge s).Settled (gauge (next s).2)
  advanced_nextD (s : S) (c : Char) :
    (gauge s).Advanced (gauge (nextD s c).2) ∨
      (nextD s c).1 = c ∧ (gauge s).Settled (gauge (nextD s c).2)
  returned_unread (s : S) (c : Char) :
    (gauge s).Returned (gauge (unread s c).2) ∨ (gauge s).Settled (gauge (unread s c).2)
  returned_backUp (s : S) :
    (gauge s).Returned (gauge (backUp s).2) ∨ (gauge s).Settled (gauge (backUp s).2)
  gauge_startRecording (s : S) : gauge (startRecording s) = ⟨(gauge s).waiting, 0, true⟩
  gauge_stopRecording (s : S) : gauge (stopRecording s).2 = ⟨(gauge s).waiting, 0, false⟩
  length_stopRecording (s : S) : (stopRecording s).1.length = (gauge s).taped

namespace FiniteStream

open CharStream

variable {S : Type u} [FiniteStream S]

/-- A bound on the number of characters that can still be consumed. -/
def waiting (s : S) : Nat :=
  (gauge s).waiting

theorem waiting_next_lt {s s' : S} {c : Char} (h : next s = (.ok c, s')) :
    waiting s' < waiting s := by
  have ha := advanced_next (s := s) (c := c) (by rw [h])
  rw [h] at ha
  exact ha.waiting

theorem waiting_next_le (s : S) : waiting (next s).2 ≤ waiting s := by
  cases h : (next s).1 with
  | ok c => exact Nat.le_of_lt (advanced_next h).waiting
  | error e => exact (settled_next h).waiting

theorem waiting_nextD_le (s : S) (c : Char) : waiting (nextD s c).2 ≤ waiting s :=
  match advanced_nextD s c with
  | .inl h => Nat.le_of_lt h.waiting
  | .inr h => h.2.waiting

theorem waiting_nextD_lt {s s' : S} {c d : Char} (h : nextD s c = (d, s')) (hd : d ≠ c) :
    waiting s' < waiting s := by
  have ha := advanced_nextD s c
  rw [h] at ha
  rcases ha with ha | ⟨rfl, -⟩
  · exact ha.waiting
  · exact absurd rfl hd

theorem waiting_skip_le (s : S) : waiting (skip s) ≤ waiting s :=
  waiting_nextD_le s _

theorem waiting_unread_le (s : S) (c : Char) : waiting (unread s c).2 ≤ waiting s + 1 :=
  match returned_unread s c with
  | .inl h => h.waiting
  | .inr h => Nat.le_succ_of_le h.waiting

theorem waiting_hasNext_le (s : S) : waiting (hasNext s).2 ≤ waiting s :=
  (settled_hasNext s).waiting

theorem waiting_peekD_le (s : S) (c : Char) : waiting (peekD s c).2 ≤ waiting s :=
  (settled_peek s).waiting

theorem waiting_isNext_le {s s' : S} {c : Char} {b : Bool} (h : isNext s c = (b, s')) :
    waiting s' ≤ waiting s := by
  have hs := settled_isNext s c
  rw [h] at hs
  exact hs.waiting

theorem waiting_isNextList_le (s : S) (text : List Char) :
    waiting (isNextList s text).2 ≤ waiting s :=
  (settled_isNextList s text).waiting

theorem waiting_startRecording (s : S) : waiting (startRecording s) = waiting s := by
  rw [waiting, gauge_startRecording, waiting]

theorem waiting_stopRecording (s : S) : waiting (stopRecording s).2 = waiting s := by
  rw [waiting, gauge_stopRecording, waiting]

/-! ## Recordings -/

/-- What happens to the gauge while a recording goes on. -/
abbrev Balanced (s s' : S) : Prop :=
  (gauge s).Balanced (gauge s')

theorem balanced_hasNext {s : S} (h : (gauge s).recording = true) : Balanced s (hasNext s).2 :=
  (settled_hasNext s).balanced h

theorem balanced_next {s : S} (h : (gauge s).recording = true) : Balanced s (next s).2 := by
  cases hn : (next s).1 with
  | ok c => exact (advanced_next hn).balanced h
  | error e => exact (settled_next hn).balanced h

theorem balanced_nextD {s : S} {c : Char} (h : (gauge s).recording = true) :
    Balanced s (nextD s c).2 := by
  rcases advanced_nextD s c with ha | ⟨-, hs⟩
  · exact ha.balanced h
  · exact hs.balanced h

theorem balanced_unread {s : S} {c : Char} (h : (gauge s).recording = true) :
    Balanced s (unread s c).2 := by
  rcases returned_unread s c with hr | hs
  · exact hr.balanced h
  · exact hs.balanced h

theorem balanced_backUp {s : S} (h : (gauge s).recording = true) : Balanced s (backUp s).2 := by
  rcases returned_backUp s with hr | hs
  · exact hr.balanced h
  · exact hs.balanced h

end FiniteStream

end RewindLexer
