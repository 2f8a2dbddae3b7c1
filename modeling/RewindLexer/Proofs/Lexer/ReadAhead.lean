import RewindLexer.Proofs.Lexer.Requests
import RewindLexer.Proofs.Tape.Took

/-!
# How far a lexer reads ahead

A watched stream remembers every state that it has been in. Main statement: on the way through any
series of requests to a lexer of a text, at most three characters wait in the lookahead, so that its
ring never grows, and what has been taken from the text is what has been consumed and what waits.
-/

namespace RewindLexer

universe u

/-! ## Lookaheads on a text -/

namespace Lookahead

variable {α : Type u} {text : List α} {p k n : Nat} {l l' : Lookahead (List α) α} {a : α}

/-- At most `n` items of the text wait behind the first `p` ones, in a ring that has not grown. -/
structure Within (text : List α) (p n : Nat) (l : Lookahead (List α) α) : Prop where
  sound : l.Sound
  capacity_eq : l.ring.capacity = Ring.defaultCapacity
  size_le : l.ring.size ≤ n
  pulled_le : p + l.ring.size ≤ text.length
  source_eq : l.source = text.drop (p + l.ring.size)

namespace Within

theorem of_source (text : List α) : Within text 0 n { source := text } where
  sound := sound_of_source text
  capacity_eq := Ring.capacity_ofCapacity _
  size_le := Nat.zero_le _
  pulled_le := Nat.zero_le _
  source_eq := rfl

theorem mono (h : l.Within text p k) (hk : k ≤ n) : l.Within text p n :=
  { h with size_le := Nat.le_trans h.size_le hk }

/-- An item that the source hands out is the next one of the text. -/
theorem source_of_some (h : l.Within text p n) (ha : (Source.next l.source).1 = some a) :
    p + l.ring.size < text.length ∧
      (Source.next l.source).2 = text.drop (p + l.ring.size + 1) := by
  rw [h.source_eq] at ha ⊢
  by_cases hlt : p + l.ring.size < text.length
  · rw [List.drop_eq_getElem_cons hlt]
    exact ⟨hlt, rfl⟩
  · rw [List.drop_eq_nil_of_le (Nat.not_lt.1 hlt)] at ha
    cases ha

theorem source_of_none (ha : (Source.next l.source).1 = none) :
    (Source.next l.source).2 = l.source := by
  cases hs : l.source with
  | nil => rfl
  | cons a rest =>
    rw [hs] at ha
    cases ha

theorem pull (h : l.Within text p n) (hk : l.ring.size + k ≤ n)
    (hn : n ≤ Ring.defaultCapacity) : (l.pull k).2.Within text p n := by
  fun_induction Lookahead.pull l k with
  | case1 l => exact h
  | case2 l k a source ha ih =>
    obtain ⟨hlt, hs⟩ := h.source_of_some (a := a) (by rw [ha])
    rw [ha] at hs
    have hroom : l.ring.size < l.ring.capacity := by
      rw [h.capacity_eq]
      omega
    refine ih ⟨(h.sound.holds.pushBack a).wellFormed, ?_, ?_, ?_, ?_⟩ ?_
    · rw [Ring.capacity_pushBack, Ring.reserve_of_lt hroom, h.capacity_eq]
    · rw [Ring.size_pushBack]
      omega
    · rw [Ring.size_pushBack]
      exact hlt
    · rw [Ring.size_pushBack]
      exact hs
    · rw [Ring.size_pushBack]
      omega
  | case3 l k source ha =>
    have hs := source_of_none (l := l) (by rw [ha])
    rw [ha] at hs
    rw [show source = l.source from hs]
    exact h

theorem fill (h : l.Within text p n) (hk : k ≤ n) (hn : n ≤ Ring.defaultCapacity) :
    (l.fill k).2.Within text p n := by
  have := h.size_le
  exact h.pull (by omega) hn

theorem lookAt (h : l.Within text p n) (hk : k < n) (hn : n ≤ Ring.defaultCapacity) :
    (l.lookAt (k + 1) k).2.Within text p n := by
  have hf := h.fill hk hn
  rw [Lookahead.lookAt]
  split
  · rename_i l' he
    rwa [he] at hf
  · rename_i l' he
    rwa [he] at hf

theorem spellsFrom [BEq α] (h : l.Within text p n) (items : List α) (hk : k + items.length ≤ n)
    (hn : n ≤ Ring.defaultCapacity) : (l.spellsFrom k items).2.Within text p n := by
  induction items generalizing l k with
  | nil => exact h
  | cons a items ih =>
    rw [List.length_cons] at hk
    have hp := h.lookAt (k := k) (by omega) hn
    simp only [Lookahead.spellsFrom]
    split
    · exact ih hp (by omega)
    · exact hp

/-- A consumed item makes room for one to be handed back. -/
theorem next_some (h : l.Within text p (n + 1)) (hn : l.next = (some a, l')) :
    l'.Within text (p + 1) n := by
  have hsound := (moved_next h.sound).sound
  rw [hn] at hsound
  cases hl : l.ring.toList with
  | nil =>
    have hzero : l.ring.size = 0 := by rw [h.sound.holds.size_eq, hl, List.length_nil]
    rw [next_of_nil h.sound hl] at hn
    simp only [Prod.mk.injEq] at hn
    obtain ⟨ha, rfl⟩ := hn
    obtain ⟨hlt, hs⟩ := h.source_of_some ha
    refine ⟨hsound, h.capacity_eq, ?_, ?_, ?_⟩
    · show l.ring.size ≤ n
      omega
    · show p + 1 + l.ring.size ≤ text.length
      omega
    · rw [hs, Nat.add_right_comm]
  | cons b rest =>
    obtain ⟨hok, -⟩ := (hl ▸ h.sound.holds).popFront_cons
    have hpop : l.ring.popFront = (.ok b, l.ring.popFront.2) := Prod.ext hok rfl
    have hpos := Ring.size_pos_of_popFront hpop
    have hle := h.size_le
    have hpulled := h.pulled_le
    rw [Lookahead.next, hpop] at hn
    cases hn
    have hsize := l.ring.size_popFront
    refine ⟨hsound, (Ring.capacity_popFront _).trans h.capacity_eq, ?_, ?_, ?_⟩
    · show l.ring.popFront.2.size ≤ n
      omega
    · show p + 1 + l.ring.popFront.2.size ≤ text.length
      omega
    · show l.source = text.drop (p + 1 + l.ring.popFront.2.size)
      rw [h.source_eq, hsize]
      congr 1
      omega

theorem next_none (h : l.Within text p n) (hn : l.next = (none, l')) : l'.Within text p n := by
  cases hl : l.ring.toList with
  | nil =>
    rw [next_of_nil h.sound hl] at hn
    simp only [Prod.mk.injEq] at hn
    obtain ⟨ha, rfl⟩ := hn
    rw [source_of_none ha]
    exact h
  | cons b rest =>
    obtain ⟨ring, hb, -⟩ := next_of_cons h.sound hl
    rw [hb] at hn
    cases hn

theorem unread (h : l.Within text (p + 1) n) (hn : n < Ring.defaultCapacity) (a : α) :
    (l.unread a).Within text p (n + 1) := by
  have hle := h.size_le
  have hpulled := h.pulled_le
  have hroom : l.ring.size < l.ring.capacity := by
    rw [h.capacity_eq]
    omega
  have hsize : (l.unread a).ring.size = l.ring.size + 1 := l.ring.size_pushFront a
  refine ⟨(unread_of_sound h.sound a).1, ?_, by omega, by omega, ?_⟩
  · show (l.ring.pushFront a).capacity = Ring.defaultCapacity
    rw [Ring.capacity_pushFront, Ring.reserve_of_lt hroom, h.capacity_eq]
  · rw [hsize, ← Nat.add_assoc, Nat.add_right_comm]
    exact h.source_eq

end Within

end Lookahead

/-! ## Tapes on a text -/

namespace Tape

variable {text : List Char} {t : Tape (List Char)}

/-- At most `n` characters of the text wait, behind those that have been consumed. -/
def Near (text : List Char) (n : Nat) (t : Tape (List Char)) : Prop :=
  t.ahead.Within text t.position n

/-- A character has been consumed, and there is room to put it back. -/
def Slack (text : List Char) (t : Tape (List Char)) : Prop :=
  t.Near text 2 ∧ 0 < t.position

theorem Slack.near (h : t.Slack text) : t.Near text 3 :=
  Lookahead.Within.mono h.1 (Nat.le_succ 2)

theorem Near.hasNext (h : t.Near text 3) : (CharStream.hasNext t).2.Near text 3 :=
  Lookahead.Within.fill h (by decide) (by decide)

theorem Near.peek (h : t.Near text 3) : (CharStream.peek t).2.Near text 3 :=
  Lookahead.Within.lookAt h (by decide) (by decide)

theorem Slack.isNextList (h : t.Slack text) :
    (CharStream.isNextList t ['#', '#']).2.Slack text :=
  ⟨Lookahead.Within.spellsFrom (k := 0) h.1 ['#', '#'] (by decide) (by decide), h.2⟩

theorem Near.consumed {c : Char} {ahead : Lookahead (List Char) Char} (h : t.Near text 3)
    (hn : t.ahead.next = (some c, ahead)) : (t.consumed c ahead).Slack text :=
  ⟨Lookahead.Within.next_some h hn, Nat.succ_pos _⟩

theorem Near.next (h : t.Near text 3) : (CharStream.next t).2.Near text 3 := by
  simp only [CharStream.next, Tape.next]
  split
  · rename_i hn
    exact (h.consumed hn).near
  · rename_i hn
    exact Lookahead.Within.next_none h hn

theorem Near.slack_next {c : Char} (h : t.Near text 3) (hc : (CharStream.next t).1 = .ok c) :
    (CharStream.next t).2.Slack text := by
  simp only [CharStream.next, Tape.next] at hc ⊢
  split at hc
  · rename_i hn
    exact h.consumed hn
  · cases hc

/-- A read past the end is undone without putting anything back. -/
theorem Near.nextD (h : t.Near text 3) (d : Char) :
    (CharStream.nextD t d).2.Near text 3 ∧
      ((CharStream.nextD t d).2.endCount = 0 → (CharStream.nextD t d).2.Slack text) := by
  simp only [CharStream.nextD, Tape.nextD]
  split
  · rename_i hn
    exact ⟨(h.consumed hn).near, fun _ => h.consumed hn⟩
  · rename_i hn
    refine ⟨Lookahead.Within.next_none h hn, ?_⟩
    intro he
    cases he

theorem Slack.putBack (h : t.Slack text) (c : Char) (log : List Char) :
    (t.putBack c log).Near text 3 := by
  obtain ⟨hn, hp⟩ := h
  rw [Near, ← Nat.sub_add_cancel hp] at hn
  exact Lookahead.Within.unread hn (by decide) c

theorem Slack.unread (h : t.Slack text) (c : Char) : (CharStream.unread t c).2.Near text 3 := by
  simp only [CharStream.unread, Tape.unread]
  split
  · split
    · exact h.near
    · split
      · exact h.putBack c _
      · exact h.near
  · exact h.putBack c _

theorem Near.backUp (h : t.Near text 3) (hs : t.endCount = 0 → t.Slack text) :
    (CharStream.backUp t).2.Near text 3 := by
  simp only [CharStream.backUp, Tape.backUp]
  split
  · exact h
  · rename_i he
    split
    · exact h
    · exact (hs he).putBack _ _

end Tape

/-! ## Watched streams -/

/-- A stream with all the states that it has been in, the last one first. -/
structure Watched (S : Type u) where
  stream : S
  seen : List S

namespace Watched

variable {S : Type u} {α : Type}

def start (s : S) : Watched S :=
  ⟨s, [s]⟩

/-- Carries a step of the stream over and notes what it leads to. -/
def step (w : Watched S) (f : S → α × S) : α × Watched S :=
  let (answer, stream) := f w.stream
  (answer, ⟨stream, stream :: w.seen⟩)

instance [CharStream S] : CharStream (Watched S) where
  hasNext w := w.step CharStream.hasNext
  next w := w.step CharStream.next
  nextD w c := w.step (CharStream.nextD · c)
  unread w c := w.step (CharStream.unread · c)
  backUp w := w.step CharStream.backUp
  peek w := w.step CharStream.peek
  isNext w c := w.step (CharStream.isNext · c)
  isNextList w text := w.step (CharStream.isNextList · text)
  startRecording w := (w.step fun s => ((), CharStream.startRecording s)).2
  stopRecording w := w.step CharStream.stopRecording
  isRecording w := CharStream.isRecording w.stream
  position w := CharStream.position w.stream

open FiniteStream

instance [FiniteStream S] : FiniteStream (Watched S) where
  gauge w := gauge w.stream
  settled_hasNext w := settled_hasNext w.stream
  settled_peek w := settled_peek w.stream
  settled_isNext w := settled_isNext w.stream
  settled_isNextList w := settled_isNextList w.stream
  advanced_next h := advanced_next h
  settled_next h := settled_next h
  advanced_nextD w := advanced_nextD w.stream
  returned_unread w := returned_unread w.stream
  returned_backUp w := returned_backUp w.stream
  gauge_startRecording w := gauge_startRecording w.stream
  gauge_stopRecording w := gauge_stopRecording w.stream
  length_stopRecording w := length_stopRecording w.stream

/-- A stream is watched that satisfies `Q` and has satisfied `P` all along. -/
structure Watches (P Q : S → Prop) (w : Watched S) (s : S) : Prop where
  stream_eq : w.stream = s
  seen : ∀ s ∈ w.seen, P s
  now : Q s

variable {P Q Q' : S → Prop} {w : Watched S} {s : S}

theorem Watches.mono (h : Watches P Q w s) (hQ : Q s → Q' s) : Watches P Q' w s :=
  ⟨h.stream_eq, h.seen, hQ h.now⟩

theorem Watches.step (h : Watches P Q w s) {f : S → α × S} (hP : P (f s).2) (hQ : Q' (f s).2) :
    Same (Watches P Q') (w.step f) (f s) := by
  obtain ⟨rfl, hseen, -⟩ := h
  refine ⟨rfl, rfl, ?_, hQ⟩
  intro s hs
  cases hs with
  | head => exact hP
  | tail _ hs => exact hseen s hs

/-- What is watched on a text, with characters put back only where there is room for them. -/
def near (text : List Char) : Alike (Watched (Tape (List Char))) (Tape (List Char)) where
  rest := Watches (Tape.Near text 3) (Tape.Near text 3)
  held := Watches (Tape.Near text 3) (Tape.Slack text)
  undoable := Watches (Tape.Near text 3) fun t => t.Near text 3 ∧ (t.endCount = 0 → t.Slack text)
  rest_of_held h := h.mono Tape.Slack.near
  rest_of_undoable h := h.mono And.left
  hasNext h := h.step h.now.hasNext h.now.hasNext
  peek h := h.step h.now.peek h.now.peek
  isNext c h := h.step h.now.peek h.now.peek
  isNextList h := h.step h.now.isNextList.near h.now.isNextList
  next h := h.step h.now.next h.now.next
  held_of_next h hc := by
    have hc := (h.step (f := CharStream.next) h.now.next h.now.next).answer.symm.trans hc
    have hs := h.now.slack_next hc
    exact (h.step hs.near hs).left
  nextD c h := h.step (h.now.nextD c).1 (h.now.nextD c)
  unread c h := h.step (h.now.unread c) (h.now.unread c)
  backUp h := h.step (h.now.1.backUp h.now.2) (h.now.1.backUp h.now.2)
  startRecording h := (h.step (f := fun s => ((), CharStream.startRecording s)) h.now h.now).left
  stopRecording h := h.step h.now h.now
  isRecording h := congrArg CharStream.isRecording h.stream_eq
  position h := congrArg CharStream.position h.stream_eq

end Watched

/-! ## Any series of requests -/

namespace Lexer

variable {τ : Type}

/-- The same lexer, with its stream watched. -/
def watched {S : Type u} (l : Lexer τ S) : Lexer τ (Watched S) where
  builder := l.builder
  stream := .start l.stream
  options := l.options
  finished := l.finished

/-- At most three characters wait, so that the ring keeps its capacity, and what has been taken from
the text is what has been consumed and what waits. Watching changes nothing else. -/
theorem performAll_reads_ahead (b : TokenBuilder τ) (o : Options) (text : List Char)
    (requests : List Request) :
    let l : Lexer τ (Tape (List Char)) := { ofText b text with options := o }
    (l.watched.performAll requests).1 = (l.performAll requests).1 ∧
      (l.watched.performAll requests).2.stream.stream = (l.performAll requests).2.stream ∧
      ∀ t ∈ (l.watched.performAll requests).2.stream.seen,
        t.ahead.buffered ≤ 3 ∧ t.ahead.ring.capacity = 4 ∧
          t.position + t.ahead.buffered ≤ text.length ∧
          t.ahead.source = text.drop (t.position + t.ahead.buffered) := by
  intro l
  have hstart : l.stream.Near text 3 := Lookahead.Within.of_source text
  have hl : (Watched.near text).Lexers l.watched l := by
    refine ⟨rfl, rfl, rfl, rfl, ?_, hstart⟩
    intro t ht
    rw [List.mem_singleton.1 ht]
    exact hstart
  obtain ⟨hreplies, hafter⟩ := hl.performAll requests
  refine ⟨hreplies, hafter.rest.stream_eq, ?_⟩
  intro t ht
  have hn : t.Near text 3 := hafter.rest.seen t ht
  exact ⟨hn.size_le, hn.capacity_eq, hn.pulled_le, hn.source_eq⟩

-- Three do wait: a `#` is consumed, the two characters behind it are looked at, and it is put back.
example :
    ((ofText Token.builder ['#', '#', 'a']).watched.performAll [.readToken]).2.stream.seen.any
      (·.ahead.buffered == 3) = true := by
  decide +kernel

end Lexer

end RewindLexer
