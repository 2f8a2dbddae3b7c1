import RewindLexer.Proofs.Lookahead.View
import RewindLexer.Stream.Tape

/-!
# What a tape has consumed

`t.Took cs t'` says all about the way from the tape `t` to the tape `t'` on which exactly the
characters `cs` have been consumed and not put back: they are gone from the front of the input, the
position has moved over them, and they have been recorded if `t` records. Each operation of a tape
is such a step, putting back undoes one, and steps compose.
-/

namespace RewindLexer.Tape

universe u

variable {σ : Type u}

/-- The lookahead of a tape is sound. -/
def Sound (t : Tape σ) : Prop :=
  t.ahead.Sound

/-- The character `c` waits in the lookahead, to be consumed next. -/
structure Pins (t : Tape σ) (c : Char) : Prop where
  sound : t.Sound
  waits : ∃ rest, t.ahead.ring.toList = c :: rest

/-- The characters that can still be consumed. -/
def view [FiniteSource σ Char] (t : Tape σ) : List Char :=
  t.ahead.view

/-- From `t` to `t'` the characters `cs` have been consumed. -/
structure Took [FiniteSource σ Char] (t : Tape σ) (cs : List Char) (t' : Tape σ) : Prop where
  sound : t'.Sound
  view : t.view = cs ++ t'.view
  position : t'.position = t.position + cs.length
  recording : t'.recording = t.recording
  log : t'.log = if t.recording then cs.reverse ++ t.log else t.log
  endCount : t'.endCount = t.endCount

section

variable [FiniteSource σ Char] {t t₁ t₂ : Tape σ} {c : Char} {cs ds : List Char}

theorem Took.refl (h : t.Sound) : t.Took [] t where
  sound := h
  view := rfl
  position := rfl
  recording := rfl
  log := by cases t.recording <;> rfl
  endCount := rfl

theorem Took.trans (h : t.Took cs t₁) (h' : t₁.Took ds t₂) : t.Took (cs ++ ds) t₂ where
  sound := h'.sound
  view := by rw [h.view, h'.view, List.append_assoc]
  position := by rw [h'.position, h.position, List.length_append, Nat.add_assoc]
  recording := h'.recording.trans h.recording
  log := by
    rw [h'.log, h.recording, h.log]
    cases t.recording with
    | false => rfl
    | true => simp
  endCount := h'.endCount.trans h.endCount

/-- Consuming has brought `t` to `t'`, where `rest` is left of the input. -/
def Reaches (t : Tape σ) (rest : List Char) (t' : Tape σ) : Prop :=
  ∃ cs, t.Took cs t' ∧ t'.view = rest

theorem Took.reaches (h : t.Took cs t₁) : t.Reaches t₁.view t₁ :=
  ⟨cs, h, rfl⟩

theorem Took.reaches_of_eq {rest : List Char} (h : t.Took cs t₁) (hv : t.view = cs ++ rest) :
    t.Reaches rest t₁ :=
  ⟨cs, h, List.append_cancel_left (h.view.symm.trans hv)⟩

theorem Took.trans_reaches {rest : List Char} (h : t.Took cs t₁) (h' : t₁.Reaches rest t₂) :
    t.Reaches rest t₂ := by
  obtain ⟨ds, hd, hv⟩ := h'
  exact ⟨cs ++ ds, h.trans hd, hv⟩

theorem Reaches.trans {rest rest' : List Char} (h : t.Reaches rest t₁) (h' : t₁.Reaches rest' t₂) :
    t.Reaches rest' t₂ := by
  obtain ⟨cs, hc, -⟩ := h
  exact hc.trans_reaches h'

theorem Reaches.sound {rest : List Char} (h : t.Reaches rest t₁) : t₁.Sound := by
  obtain ⟨cs, hc, -⟩ := h
  exact hc.sound

theorem Reaches.view_eq {rest : List Char} (h : t.Reaches rest t₁) : t₁.view = rest := by
  obtain ⟨cs, -, hv⟩ := h
  exact hv

theorem Reaches.took_of_eq {rest : List Char} (h : t.Reaches rest t₁) (hv : t.view = cs ++ rest) :
    t.Took cs t₁ := by
  obtain ⟨ds, hd, rfl⟩ := h
  rw [List.append_cancel_right (hv.symm.trans hd.view)]
  exact hd

/-- What has been consumed is the input less what is left of it. -/
theorem Reaches.took {rest : List Char} (h : t.Reaches rest t₁) :
    t.Took (t.view.take (t.view.length - rest.length)) t₁ := by
  obtain ⟨cs, hc, rfl⟩ := h
  have hlen : t.view.length - t₁.view.length = cs.length := by
    rw [hc.view, List.length_append]
    omega
  rw [hlen, hc.view, List.take_left]
  exact hc

/-- Reading on a tape has done what reading on a list does: it has given the same answer and has
left the same rest. -/
structure Agrees {α : Type} (t : Tape σ) (r : Except LexError α × List Char)
    (r' : Except LexError α × Tape σ) : Prop where
  answer : r'.1 = r.1
  reaches : t.Reaches r.2 r'.2

theorem Agrees.eq {α : Type} {r : Except LexError α × List Char} {r' : Except LexError α × Tape σ}
    (h : t.Agrees r r') : r' = (r.1, r'.2) := by
  rw [← h.answer]

theorem Agrees.eq_view {α : Type} {r : Except LexError α × List Char}
    {r' : Except LexError α × Tape σ} (h : t.Agrees r r') : r = (r'.1, r'.2.view) := by
  rw [h.answer, h.reaches.view_eq]

theorem Took.trans_agrees {α : Type} {r : Except LexError α × List Char}
    {r' : Except LexError α × Tape σ} (h : t.Took cs t₁) (h' : t₁.Agrees r r') : t.Agrees r r' :=
  ⟨h'.answer, h.trans_reaches h'.reaches⟩

theorem Reaches.trans_agrees {α : Type} {rest : List Char} {r : Except LexError α × List Char}
    {r' : Except LexError α × Tape σ} (h : t.Reaches rest t₁) (h' : t₁.Agrees r r') :
    t.Agrees r r' :=
  ⟨h'.answer, h.trans h'.reaches⟩

/-! ## Recording -/

/-- A tape between tokens: it records nothing and has nothing to undo. -/
structure Idle (t : Tape σ) : Prop where
  sound : t.Sound
  recording : t.recording = false
  log : t.log = []
  endCount : t.endCount = 0

theorem Took.idle (h : t.Took cs t₁) (hi : t.Idle) : t₁.Idle where
  sound := h.sound
  recording := h.recording.trans hi.recording
  log := by
    rw [h.log, hi.recording]
    exact hi.log
  endCount := h.endCount.trans hi.endCount

theorem Reaches.idle {rest : List Char} (h : t.Reaches rest t₁) (hi : t.Idle) : t₁.Idle := by
  obtain ⟨cs, hc, -⟩ := h
  exact hc.idle hi

theorem Took.log_start (h : t.startRecording.Took cs t₁) : t₁.recorded = cs := by
  have hl : t₁.log = cs.reverse ++ [] := h.log
  rw [recorded, hl, List.append_nil, List.reverse_reverse]

/-- On an idle tape a recording gives what was consumed, and leaves an idle tape. -/
theorem Took.stop (h : t.startRecording.Took cs t₁) (hi : t.Idle) :
    (CharStream.stopRecording t₁).1 = cs ∧ t.Took cs (CharStream.stopRecording t₁).2 := by
  refine ⟨h.log_start, h.sound, h.view, h.position, ?_, ?_, ?_⟩
  · exact hi.recording.symm
  · rw [hi.recording]
    exact hi.log.symm
  · exact hi.endCount.symm

/-! ## Looking ahead -/

/-- A step that changes the lookahead alone and shows the same characters consumes nothing. -/
theorem took_of_view {ahead : Lookahead σ Char} (h : ahead.Sound ∧ ahead.view = t.ahead.view) :
    t.Took [] { t with ahead := ahead } where
  sound := h.1
  view := h.2.symm
  position := rfl
  recording := rfl
  log := by cases t.recording <;> rfl
  endCount := rfl

theorem took_hasNext (h : t.Sound) : t.Took [] (CharStream.hasNext t).2 :=
  took_of_view (Lookahead.Sound.fill h 1)

theorem took_peek (h : t.Sound) : t.Took [] (CharStream.peek t).2 :=
  took_of_view (Lookahead.Sound.peekNth h 0)

theorem took_isNext (h : t.Sound) (c : Char) : t.Took [] (CharStream.isNext t c).2 :=
  took_of_view (Lookahead.Sound.peekNth h 0)

theorem took_isNextList (h : t.Sound) (text : List Char) :
    t.Took [] (CharStream.isNextList t text).2 :=
  took_of_view (Lookahead.Sound.spellsFrom h 0 text)

/-! ## Consuming -/

theorem took_consumed (h : t.Sound) {ahead : Lookahead σ Char}
    (hn : t.ahead.next = (some c, ahead)) : t.Took [c] (t.consumed c ahead) := by
  have hs := Lookahead.Sound.next h
  rw [hn] at hs
  exact ⟨hs.1, hs.2, rfl, rfl, rfl, rfl⟩

theorem took_next (h : t.Sound) (hn : CharStream.next t = (.ok c, t₁)) : t.Took [c] t₁ := by
  simp only [CharStream.next, Tape.next] at hn
  split at hn
  · rename_i ha
    simp only [Prod.mk.injEq, Except.ok.injEq] at hn
    obtain ⟨rfl, rfl⟩ := hn
    exact took_consumed h ha
  · simp at hn

theorem took_of_next_error (h : t.Sound) {e : LexError} (hn : CharStream.next t = (.error e, t₁)) :
    e = .endOfInput ∧ t.Took [] t₁ := by
  simp only [CharStream.next, Tape.next] at hn
  split at hn
  · simp at hn
  · rename_i ahead ha
    simp only [Prod.mk.injEq, Except.error.injEq] at hn
    obtain ⟨rfl, rfl⟩ := hn
    have hs := Lookahead.Sound.next h
    rw [ha] at hs
    exact ⟨rfl, took_of_view ⟨hs.1, hs.2.symm⟩⟩

/-! ## Putting back -/

theorem Took.putBack (h : t.Took (cs ++ [c]) t₁) {log : List Char}
    (hlog : log = if t.recording then cs.reverse ++ t.log else t.log) :
    t.Took cs (t₁.putBack c log) := by
  have hs := Lookahead.Sound.unread h.sound c
  refine ⟨hs.1, ?_, ?_, h.recording, hlog, h.endCount⟩
  · rw [h.view, List.append_assoc]
    exact congrArg (cs ++ ·) hs.2.symm
  · show t₁.position - 1 = t.position + cs.length
    rw [h.position, List.length_append, List.length_singleton]
    omega

theorem Took.log_concat (h : t.Took (cs ++ [c]) t₁) (hr : t.recording = true) :
    t₁.log = c :: (cs.reverse ++ t.log) := by
  rw [h.log, hr, if_pos rfl, List.reverse_append]
  rfl

/-- The character consumed last can be put back, whether or not the tape records. -/
theorem Took.unread (h : t.Took (cs ++ [c]) t₁) :
    ∃ t₂, CharStream.unread t₁ c = (.ok (), t₂) ∧ t.Took cs t₂ := by
  simp only [CharStream.unread, Tape.unread, h.recording]
  cases hr : t.recording with
  | true =>
    rw [h.log_concat hr]
    refine ⟨t₁.putBack c (cs.reverse ++ t.log), by simp, h.putBack ?_⟩
    rw [hr, if_pos rfl]
  | false =>
    refine ⟨_, rfl, h.putBack ?_⟩
    rw [h.log, hr]
    rfl

/-- While recording, the last consumption can be undone if no read past the end comes before it. -/
theorem Took.backUp (h : t.Took (cs ++ [c]) t₁) (hr : t.recording = true) (he : t.endCount = 0) :
    ∃ t₂, CharStream.backUp t₁ = (.ok (), t₂) ∧ t.Took cs t₂ := by
  simp only [CharStream.backUp, Tape.backUp, h.endCount, he, h.log_concat hr]
  refine ⟨_, rfl, h.putBack ?_⟩
  rw [hr, if_pos rfl]

/-! ## Waiting characters

A scanner asks whether there is a next character and then consumes it. The question makes the
character wait in the lookahead, where it stays even if the source has nothing for a while. -/

theorem Pins.startRecording (h : t.Pins c) : (CharStream.startRecording t).Pins c :=
  ⟨h.sound, h.waits⟩

theorem Pins.next (h : t.Pins c) : ∃ t₁, CharStream.next t = (.ok c, t₁) ∧ t.Took [c] t₁ := by
  obtain ⟨hs, rest, hl⟩ := h
  obtain ⟨ring, hn, -⟩ := Lookahead.next_of_cons hs hl
  have hnext : CharStream.next t = (.ok c, t.consumed c { t.ahead with ring := ring }) := by
    simp only [CharStream.next, Tape.next, hn]
  exact ⟨_, hnext, took_next hs hnext⟩

/-- While a character waits the source is not asked for another one. -/
theorem Pins.fill (h : t.Pins c) : t.ahead.fill 1 = (true, t.ahead) := by
  obtain ⟨hs, rest, hl⟩ := h
  have hsize := hs.holds.size_eq
  rw [hl, List.length_cons] at hsize
  rw [Lookahead.fill, hsize, Nat.sub_eq_zero_of_le (Nat.succ_le_succ (Nat.zero_le _))]
  rfl

theorem Pins.hasNext (h : t.Pins c) : CharStream.hasNext t = (true, t) := by
  simp only [CharStream.hasNext, Tape.hasNext, Lookahead.hasNext, h.fill]

theorem Pins.peekD (h : t.Pins c) (d : Char) : CharStream.peekD t d = (c, t) := by
  obtain ⟨rest, hl⟩ := h.waits
  have hget := h.sound.holds.toOption_get 0
  rw [hl] at hget
  simp only [CharStream.peekD, CharStream.peek, Tape.peek, Lookahead.peek_eq_lookAt,
    Lookahead.lookAt, h.fill, hget, List.getElem?_cons_zero, Option.getD_some]

theorem pins_of_hasNext (h : t.Sound) (hn : CharStream.hasNext t = (true, t₁)) :
    ∃ c, t₁.Pins c := by
  obtain ⟨hs, -⟩ := Lookahead.Sound.fill h 1
  simp only [CharStream.hasNext, Tape.hasNext, Prod.mk.injEq] at hn
  obtain ⟨hf, rfl⟩ := hn
  have hle := Lookahead.le_size_fill_of_true hf
  cases hl : (t.ahead.fill 1).2.ring.toList with
  | nil =>
    have hsize : (t.ahead.fill 1).2.ring.size = 0 := by
      rw [hs.holds.size_eq]
      exact congrArg List.length hl
    rw [hsize] at hle
    cases hle
  | cons c rest => exact ⟨c, hs, rest, hl⟩

theorem not_next_error_of_hasNext (h : t.Sound) (hn : CharStream.hasNext t = (true, t₁))
    {e : LexError} : CharStream.next t₁ ≠ (.error e, t₂) := by
  obtain ⟨c, hp⟩ := pins_of_hasNext h hn
  obtain ⟨t₃, hnext, -⟩ := hp.next
  rw [hnext]
  intro he
  cases he

theorem took_read (h : t.Sound) {b : Bool} (hn : CharStream.hasNext t = (b, t₁))
    (hnext : CharStream.next t₁ = (.ok c, t₂)) : t.Took [c] t₂ := by
  have ht := took_hasNext h
  rw [hn] at ht
  exact ht.trans (took_next ht.sound hnext)

end

/-! ## Sources that end for good -/

section

variable [FusedSource σ Char] {t t₁ : Tape σ} {c : Char} {cs : List Char}

theorem hasNext_eq (h : t.Sound) : (CharStream.hasNext t).1 = !t.view.isEmpty :=
  Lookahead.Sound.hasNext_eq h

theorem peek_eq (h : t.Sound) : (CharStream.peek t).1 = t.view.head? :=
  Lookahead.Sound.peek_eq h

theorem peekD_cons (h : t.Sound) (hv : t.view = c :: cs) (d : Char) :
    (CharStream.peekD t d).1 = c ∧ t.Took [] (CharStream.peekD t d).2 := by
  have hp := peek_eq h
  rw [hv] at hp
  refine ⟨?_, took_peek h⟩
  show (CharStream.peek t).1.getD d = c
  rw [hp]
  rfl

theorem isNext_eq (h : t.Sound) (c : Char) :
    (CharStream.isNext t c).1 = (t.view.head? == some c) := by
  rw [← peek_eq h]
  rfl

theorem took_isNext_of_eq {t₂ : Tape σ} {b : Bool} (h : t.Took cs t₁)
    (hi : CharStream.isNext t₁ c = (b, t₂)) :
    t.Took cs t₂ ∧ b = (t₂.view.head? == some c) := by
  have hs := took_isNext h.sound c
  have he := isNext_eq h.sound c
  rw [hi] at hs he
  refine ⟨?_, ?_⟩
  · rw [← List.append_nil cs]
    exact h.trans hs
  · rw [hs.view] at he
    exact he

theorem isNextList_eq (h : t.Sound) (text : List Char) :
    (CharStream.isNextList t text).1 = text.isPrefixOf t.view :=
  Lookahead.Sound.isNextList_eq h text

theorem view_of_next_error (h : t.Sound) {e : LexError} (hn : CharStream.next t = (.error e, t₁)) :
    t.view = [] := by
  simp only [CharStream.next, Tape.next] at hn
  split at hn
  · simp at hn
  · rename_i ahead ha
    exact Lookahead.Sound.view_of_next_none h (by rw [ha])

theorem took_of_hasNext_false (h : t.Sound) (hn : CharStream.hasNext t = (false, t₁)) :
    t.view = [] ∧ t.Took [] t₁ := by
  have he := hasNext_eq h
  have ht := took_hasNext h
  rw [hn] at he ht
  refine ⟨?_, ht⟩
  simpa using he.symm

/-- A read past the end changes nothing but the count of such reads. -/
theorem took_nextD (h : t.Sound) (d : Char) :
    (∃ c cs, t.view = c :: cs ∧ (CharStream.nextD t d).1 = c ∧
        t.Took [c] (CharStream.nextD t d).2) ∨
      t.view = [] ∧ (CharStream.nextD t d).1 = d ∧
        ∃ t₁, t.Took [] t₁ ∧
          (CharStream.nextD t d).2 = { t₁ with endCount := t₁.endCount + 1 } := by
  simp only [CharStream.nextD, Tape.nextD]
  split
  · rename_i c ahead ha
    have ht := took_consumed h ha
    exact .inl ⟨c, _, ht.view, rfl, ht⟩
  · rename_i ahead ha
    have hs := Lookahead.Sound.next h
    rw [ha] at hs
    refine .inr ⟨Lookahead.Sound.view_of_next_none h (by rw [ha]), rfl, ?_⟩
    exact ⟨{ t with ahead := ahead }, took_of_view ⟨hs.1, hs.2.symm⟩, rfl⟩

theorem took_skip (h : t.Sound) (hv : t.view = c :: cs) : t.Took [c] (CharStream.skip t) := by
  rcases took_nextD h '\x00' with ⟨c', cs', hv', -, ht⟩ | ⟨hnil, -⟩
  · rw [hv] at hv'
    cases hv'
    exact ht
  · rw [hv] at hnil
    cases hnil

theorem next_cons (h : t.Sound) (hv : t.view = c :: cs) :
    ∃ t₁, CharStream.next t = (.ok c, t₁) ∧ t.Took [c] t₁ := by
  cases hn : CharStream.next t with
  | mk answer t₁ =>
    cases answer with
    | error e =>
      rw [view_of_next_error h hn] at hv
      cases hv
    | ok d =>
      have ht := took_next h hn
      have hd := hv.symm.trans ht.view
      cases hd
      exact ⟨t₁, rfl, ht⟩

end

end RewindLexer.Tape
