import RewindLexer.Stream.Finite
import RewindLexer.Tape

/-!
# Tapes as streams

A tape over a source is a stream, and a finite one if its source is finite.
-/

namespace RewindLexer

universe u

namespace Tape

variable {σ : Type u}

instance [Source σ Char] : CharStream (Tape σ) where
  hasNext := hasNext
  next := next
  nextD := nextD
  unread := unread
  backUp := backUp
  peek := peek
  isNext := isNext
  isNextList := isNextList
  startRecording := startRecording
  stopRecording := stopRecording
  isRecording := recording
  position := position

variable [FiniteSource σ Char]

/-- What a tape has in store. -/
def gauge (t : Tape σ) : Gauge :=
  ⟨t.ahead.waiting, t.log.length, t.recording⟩

theorem settled_of_waiting {t : Tape σ} {ahead : Lookahead σ Char}
    (h : ahead.waiting ≤ t.ahead.waiting) : t.gauge.Settled (gauge { t with ahead := ahead }) :=
  ⟨h, rfl, rfl⟩

theorem advanced_consumed {t : Tape σ} {c : Char} {ahead : Lookahead σ Char}
    (h : t.ahead.next = (some c, ahead)) : t.gauge.Advanced (t.consumed c ahead).gauge where
  waiting := Lookahead.waiting_next_lt h
  taped hr := by
    have hr' : t.recording = true := hr
    simp [gauge, consumed, hr']
  recording := rfl

theorem returned_putBack {t : Tape σ} {c : Char} {log : List Char}
    (h : t.recording = true → t.log.length = log.length + 1) :
    t.gauge.Returned (t.putBack c log).gauge where
  waiting := Nat.le_of_eq (t.ahead.waiting_unread c)
  taped hr := h hr
  recording := rfl

instance : FiniteStream (Tape σ) where
  gauge := gauge
  settled_hasNext t := settled_of_waiting (Nat.le_of_eq (t.ahead.waiting_fill 1))
  settled_peek t := settled_of_waiting (Nat.le_of_eq (t.ahead.waiting_peekNth 0))
  settled_isNext t _ := settled_of_waiting (Nat.le_of_eq (t.ahead.waiting_peekNth 0))
  settled_isNextList t text :=
    settled_of_waiting (Nat.le_of_eq (t.ahead.waiting_spellsFrom 0 text))
  advanced_next {t c} h := by
    simp only [CharStream.next, Tape.next] at h ⊢
    split at h
    · rename_i ha
      exact advanced_consumed ha
    · cases h
  settled_next {t e} h := by
    have hle := t.ahead.waiting_next_le
    simp only [CharStream.next, Tape.next] at h ⊢
    split at h
    · cases h
    · rename_i ha
      rw [ha] at hle
      exact settled_of_waiting hle
  advanced_nextD t c := by
    have hle := t.ahead.waiting_next_le
    simp only [CharStream.nextD, Tape.nextD]
    split
    · rename_i ha
      exact .inl (advanced_consumed ha)
    · rename_i ha
      rw [ha] at hle
      exact .inr ⟨rfl, hle, rfl, rfl⟩
  returned_unread t c := by
    simp only [CharStream.unread, Tape.unread]
    split
    · split
      · exact .inr ⟨Nat.le_refl _, rfl, rfl⟩
      · rename_i hl
        split
        · exact .inl (returned_putBack fun _ => by rw [hl, List.length_cons])
        · exact .inr ⟨Nat.le_refl _, rfl, rfl⟩
    · rename_i hr
      exact .inl (returned_putBack fun h => absurd h hr)
  returned_backUp t := by
    simp only [CharStream.backUp, Tape.backUp]
    split
    · exact .inr ⟨Nat.le_refl _, rfl, rfl⟩
    · split
      · exact .inr ⟨Nat.le_refl _, rfl, rfl⟩
      · rename_i hl
        exact .inl (returned_putBack fun _ => by rw [hl, List.length_cons])
  gauge_startRecording _ := rfl
  gauge_stopRecording _ := rfl
  length_stopRecording t := List.length_reverse

end Tape

end RewindLexer
