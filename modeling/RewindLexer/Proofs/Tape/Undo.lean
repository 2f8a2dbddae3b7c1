import RewindLexer.Proofs.Tape.Resemblance

/-!
# Undoing what was read

A tape undoes from two records, the log of characters and the count of reads past the end, and takes
from the count first. The records do not say in which order they were written. Over a source that
stays at its end reads past the end come last, so the order is right as long as nothing is put back
in between. Main statements: where a tape has only been read since the start of its window, undoing
goes back over the consumptions one by one and stops at the start; and in any window undoing gives
a character back that has just been read exactly if no read past the end is counted.
-/

namespace RewindLexer.Tape

universe u

variable {σ : Type u} [Source σ Char] {t t' : Tape σ}

/-! ## Consumptions -/

/-- The character that a move consumes. -/
def takes (t : Tape σ) : Move → Option Char
  | .next | .nextD _ | .skip => t.ahead.next.1
  | _ => none

/-- Whether a move counts a read past the end where it finds nothing to consume. -/
def Move.counts : Move → Bool
  | .nextD _ | .skip => true
  | _ => false

/-- Whether a move consumes a character or counts a read past the end. -/
def consumes (t : Tape σ) (m : Move) : Bool :=
  (t.takes m).isSome || m.counts

/-- Whether a move puts something back. -/
def Move.reverts : Move → Bool
  | .unread _ | .backUp => true
  | _ => false

/-- The tapes right after those of the moves that consume. -/
def stops (t : Tape σ) : List Move → List (Tape σ)
  | [] => []
  | m :: moves =>
    if t.consumes m then t.move m :: stops (t.move m) moves else stops (t.move m) moves

/-- The tape after `n` undos. -/
def undone {σ : Type u} (t : Tape σ) : Nat → Tape σ
  | 0 => t
  | n + 1 => undone t.backUp.2 n

section

variable {m : Move} {c : Char} {ahead : Lookahead σ Char}

theorem move_of_takes (h : t.takes m = some c) :
    ∃ ahead, t.ahead.next = (some c, ahead) ∧ t.move m = t.consumed c ahead := by
  cases m with
  | next | nextD | skip =>
    have hn : t.ahead.next = (some c, t.ahead.next.2) := Prod.ext h rfl
    refine ⟨t.ahead.next.2, hn, ?_⟩
    simp only [Tape.move, Tape.next, Tape.skip, Tape.nextD]
    rw [hn]
  | _ => cases h

theorem move_of_counts (hm : m.counts = true) (h : t.takes m = none) :
    ∃ ahead, t.ahead.next = (none, ahead) ∧
      t.move m = { t with ahead := ahead, endCount := t.endCount + 1 } := by
  cases m with
  | nextD | skip =>
    have hn : t.ahead.next = (none, t.ahead.next.2) := Prod.ext h rfl
    refine ⟨t.ahead.next.2, hn, ?_⟩
    simp only [Tape.move, Tape.skip, Tape.nextD]
    rw [hn]
  | _ => cases hm

/-- A move that neither consumes nor puts back changes what waits in the lookahead, at most. -/
theorem move_of_not_consumes (hs : t.ahead.Sound) (hr : m.reverts = false)
    (hc : t.consumes m = false) :
    ∃ ahead, t.ahead.Moved [] ahead ∧ t.move m = { t with ahead := ahead } := by
  rw [consumes, Bool.or_eq_false_iff] at hc
  cases m with
  | hasNext => exact ⟨_, Lookahead.moved_fill hs 1, rfl⟩
  | next =>
    have ht : t.takes .next = none := by simpa using hc.1
    have hn : t.ahead.next = (none, t.ahead.next.2) := Prod.ext ht rfl
    have hm := Lookahead.moved_next hs
    rw [hn] at hm
    refine ⟨_, hm, ?_⟩
    simp only [Tape.move, Tape.next]
    rw [hn]
  | nextD | skip => cases hc.2
  | unread | backUp => cases hr
  | peek | peekD | isNext => exact ⟨_, Lookahead.moved_peekNth hs 0, rfl⟩
  | isNextList text => exact ⟨_, Lookahead.moved_spellsFrom hs 0 text, rfl⟩

/-- The three things that a move can do that puts nothing back. -/
theorem read_cases (hs : t.ahead.Sound) (hr : m.reverts = false) :
    (∃ c ahead, t.consumes m = true ∧ t.ahead.next = (some c, ahead) ∧
        t.move m = t.consumed c ahead) ∨
      (∃ ahead, t.consumes m = true ∧ t.ahead.next = (none, ahead) ∧
        t.move m = { t with ahead := ahead, endCount := t.endCount + 1 }) ∨
      t.consumes m = false ∧ ∃ ahead, t.ahead.Moved [] ahead ∧
        t.move m = { t with ahead := ahead } := by
  cases hc : t.consumes m with
  | false => exact .inr (.inr ⟨rfl, move_of_not_consumes hs hr hc⟩)
  | true =>
    cases ht : t.takes m with
    | some c =>
      obtain ⟨ahead, hn, he⟩ := move_of_takes ht
      exact .inl ⟨c, ahead, rfl, hn, he⟩
    | none =>
      have hm : m.counts = true := by simpa [consumes, ht] using hc
      obtain ⟨ahead, hn, he⟩ := move_of_counts hm ht
      exact .inr (.inl ⟨ahead, rfl, hn, he⟩)

/-! ## Reads past the end come last -/

/-- A tape in a window where reads past the end are counted only once nothing is left. -/
structure Ordered (t : Tape σ) : Prop extends Steady t where
  recording : t.recording = true
  ended : t.endCount ≠ 0 → ∀ c, ¬t.ahead.Offers [c]

theorem Ordered.endCount_eq (h : t.Ordered) (hn : t.ahead.next = (some c, ahead)) :
    t.endCount = 0 := by
  by_contra hne
  refine h.ended hne c ((h.sound.next_iff h.fused).1 ?_)
  rw [hn]

theorem Ordered.read (h : t.Ordered) (hr : m.reverts = false) : (t.move m).Ordered := by
  have hsteady := h.toSteady.move m
  have hm := Lookahead.moved_next h.sound
  rcases read_cases h.sound hr with ⟨c, ahead, -, hn, he⟩ | ⟨ahead, -, hn, he⟩ | ⟨-, ahead, hl, he⟩
  · rw [he] at hsteady ⊢
    refine ⟨hsteady, h.recording, ?_⟩
    intro hne
    exact absurd (h.endCount_eq hn) hne
  · rw [he] at hsteady ⊢
    refine ⟨hsteady, h.recording, ?_⟩
    intro _ c ho
    rw [hn] at hm
    rw [hm.offers_eq, ← h.sound.next_iff h.fused, hn] at ho
    cases ho
  · rw [he] at hsteady ⊢
    refine ⟨hsteady, h.recording, ?_⟩
    intro hne c ho
    rw [hl.offers_eq] at ho
    exact h.ended hne c ho

theorem Ordered.backUp (h : t.Ordered) : t.backUp.2.Ordered := by
  have hsteady : t.backUp.2.Steady := h.toSteady.move .backUp
  rw [Tape.backUp] at hsteady ⊢
  split
  · rename_i n hn
    refine ⟨⟨h.sound, h.fused⟩, h.recording, ?_⟩
    intro _
    exact h.ended (by rw [hn]; exact Nat.succ_ne_zero n)
  · rename_i hz
    split
    · exact h
    · rename_i c log hl
      simp only [hz, hl] at hsteady
      refine ⟨hsteady, h.recording, ?_⟩
      intro hne
      exact absurd hz hne

theorem Ordered.run (h : t.Ordered) {moves : List Move} (hm : ∀ d, .unread d ∉ moves) :
    (moves.foldl Tape.move t).Ordered := by
  induction moves generalizing t with
  | nil => exact h
  | cons m moves ih =>
    have hrest : ∀ d, .unread d ∉ moves := fun d hd => hm d (List.mem_cons_of_mem m hd)
    refine ih ?_ hrest
    cases m with
    | unread d => exact absurd List.mem_cons_self (hm d)
    | backUp => exact h.backUp
    | _ => exact h.read rfl

theorem ordered_startRecording (h : t.Steady) : t.startRecording.Ordered :=
  ⟨⟨h.sound, h.fused⟩, rfl, fun hne => absurd rfl hne⟩

/-! ## Undoing one consumption -/

theorem backUp_consumed (hs : t.ahead.Sound) (hr : t.recording = true) (he : t.endCount = 0)
    (hn : t.ahead.next = (some c, ahead)) :
    (t.consumed c ahead).backUp.1 = .ok () ∧ t.Resembles (t.consumed c ahead).backUp.2 := by
  have hm := Lookahead.moved_next hs
  rw [hn] at hm
  have hlog : (t.consumed c ahead).log = c :: t.log := if_pos hr
  have hcount : (t.consumed c ahead).endCount = 0 := he
  rw [Tape.backUp, hcount, hlog]
  refine ⟨rfl, ?_, rfl, rfl, rfl, rfl⟩
  show (ahead.unread c).Offers = t.ahead.Offers
  rw [Lookahead.offers_unread hm.sound, hm.offers_cons]

theorem Ordered.backUp_of_consumes (h : t.Ordered) (hr : m.reverts = false)
    (hc : t.consumes m = true) :
    (t.move m).backUp.1 = .ok () ∧ t.Resembles (t.move m).backUp.2 := by
  rcases read_cases h.sound hr with ⟨c, ahead, -, hn, he⟩ | ⟨ahead, -, hn, he⟩ | ⟨hf, -⟩
  · rw [he]
    exact backUp_consumed h.sound h.recording (h.endCount_eq hn) hn
  · have hm := Lookahead.moved_next h.sound
    rw [hn] at hm
    rw [he]
    exact ⟨rfl, hm.offers_eq, rfl, rfl, rfl, rfl⟩
  · rw [hc] at hf
    cases hf

end

/-! ## Undoing one consumption after the other -/

/-- Undoing leads from `t` back through tapes that resemble those of the list, to a tape that has
nothing left to undo. -/
inductive Rewinds : Tape σ → List (Tape σ) → Prop where
  | start {t s : Tape σ} (h : s.Resembles t) (hl : t.log = []) (he : t.endCount = 0) :
    Rewinds t [s]
  | back {t s : Tape σ} {stops : List (Tape σ)} (h : s.Resembles t) (ho : t.backUp.1 = .ok ())
    (hb : Rewinds t.backUp.2 stops) : Rewinds t (s :: stops)

theorem Steady.undone (h : t.Steady) (n : Nat) : (t.undone n).Steady := by
  induction n generalizing t with
  | zero => exact h
  | succ n ih => exact ih (h.move .backUp)

theorem Rewinds.of_resembles {stops : List (Tape σ)} (h : t.Rewinds stops) (hr : t.Resembles t')
    (hs : t.ahead.Sound) (hs' : t'.ahead.Sound) : t'.Rewinds stops := by
  induction h generalizing t' with
  | start h hl he => exact .start (h.trans hr) (hr.log.trans hl) (hr.endCount.trans he)
  | back h ho _ ih =>
    obtain ⟨ha, hb⟩ := hr.backUp hs hs'
    refine .back (h.trans hr) (ha.trans ho) (ih hb ?_ ?_)
    · exact (moves_backUp hs).sound hs
    · exact (moves_backUp hs').sound hs'

theorem Rewinds.read {stops : List (Tape σ)} {m : Move} (h : t.Rewinds stops)
    (ho : t.Ordered) (hr : m.reverts = false) :
    if t.consumes m then (t.move m).Rewinds (t.move m :: stops) else (t.move m).Rewinds stops := by
  have hs' := (ho.read hr).sound
  split
  · rename_i hc
    obtain ⟨ha, hb⟩ := ho.backUp_of_consumes hr hc
    exact .back (.refl _) ha (h.of_resembles hb ho.sound ((moves_backUp hs').sound hs'))
  · rename_i hc
    obtain ⟨ahead, hm, he⟩ := move_of_not_consumes ho.sound hr (by simpa using hc)
    rw [he] at hs' ⊢
    exact h.of_resembles (resembles_of_moved hm) ho.sound hs'

theorem Rewinds.run {stops : List (Tape σ)} {moves : List Move} (h : t.Rewinds stops)
    (ho : t.Ordered) (hr : ∀ m ∈ moves, m.reverts = false) :
    (moves.foldl Tape.move t).Rewinds ((t.stops moves).reverse ++ stops) := by
  induction moves generalizing t stops with
  | nil => exact h
  | cons m moves ih =>
    have hm := hr m List.mem_cons_self
    have hrest : ∀ m ∈ moves, m.reverts = false := fun m h => hr m (List.mem_cons_of_mem _ h)
    have hstep := h.read ho hm
    rw [Tape.stops]
    split
    · rename_i hc
      rw [if_pos hc] at hstep
      rw [List.reverse_cons, List.append_assoc]
      exact ih hstep (ho.read hm) hrest
    · rename_i hc
      rw [if_neg hc] at hstep
      exact ih hstep (ho.read hm) hrest

theorem Rewinds.undone {stops : List (Tape σ)} (h : t.Rewinds stops) {n : Nat}
    (hn : stops.length = n + 1) :
    (∀ j < n, (t.undone j).backUp.1 = .ok ()) ∧
      (∀ j ≤ n, ∃ s, stops[j]? = some s ∧ s.Resembles (t.undone j)) ∧
      (t.undone n).backUp = (.error .nothingToBackUp, t.undone n) := by
  induction h generalizing n with
  | @start t s h hl he =>
    cases hn
    refine ⟨fun j hj => absurd hj (Nat.not_lt_zero j), ?_, ?_⟩
    · intro j hj
      cases Nat.le_zero.1 hj
      exact ⟨s, rfl, h⟩
    · show t.backUp = _
      rw [Tape.backUp, he, hl]
      rfl
  | @back t s stops h ho hb ih =>
    cases n with
    | zero =>
      cases List.eq_nil_of_length_eq_zero (Nat.succ.inj hn)
      cases hb
    | succ n =>
      obtain ⟨hok, hres, hend⟩ := ih (Nat.succ.inj hn)
      refine ⟨?_, ?_, hend⟩
      · intro j hj
        cases j with
        | zero => exact ho
        | succ j => exact hok j (Nat.lt_of_succ_lt_succ hj)
      · intro j hj
        cases j with
        | zero => exact ⟨s, rfl, h⟩
        | succ j => exact hres j (Nat.le_of_succ_le_succ hj)

/-- Over a source that stays at its end, and from every state of a tape: whatever has been read and
looked at since the start of a window, undoing goes back over the consumptions, the last one first.
At the start it fails and changes nothing, and from there the same calls give the same answers. -/
theorem undone_after_reads {source : σ} (hs : Source.Fused source)
    (before : List (Lookahead.Op Char)) (history : List Op) (calls : List Move)
    (hr : ∀ m ∈ calls, m.reverts = false) :
    let t₀ := (reached source before history).startRecording
    let t₁ := calls.foldl move t₀
    let stops := t₀.stops calls
    let start := t₁.undone stops.length
    (∀ j < stops.length, (t₁.undone j).backUp.1 = .ok ()) ∧
    (∀ j ≤ stops.length,
      ∃ t, (t₀ :: stops)[stops.length - j]? = some t ∧ t.Resembles (t₁.undone j)) ∧
    start.backUp = (.error .nothingToBackUp, start) ∧
    start.replies calls = t₀.replies calls ∧
    t₁.Resembles (calls.foldl move start) := by
  intro t₀ t₁ stops start
  have ho : t₀.Ordered := ordered_startRecording (steady_reached hs before history)
  have hsteady : start.Steady := (ho.toSteady.run calls).undone _
  have hstart : t₀.Rewinds [t₀] := .start (.refl t₀) rfl rfl
  have hrun : t₁.Rewinds (stops.reverse ++ [t₀]) := hstart.run ho hr
  rw [← List.reverse_cons] at hrun
  obtain ⟨hok, hres, hend⟩ := hrun.undone (n := stops.length) (by simp)
  have hres' : ∀ j ≤ stops.length,
      ∃ t, (t₀ :: stops)[stops.length - j]? = some t ∧ t.Resembles (t₁.undone j) := by
    intro j hj
    obtain ⟨t, ht, htr⟩ := hres j hj
    rw [List.getElem?_reverse (by simp; omega)] at ht
    exact ⟨t, ht, htr⟩
  obtain ⟨t, ht, htr⟩ := hres' stops.length (Nat.le_refl _)
  rw [Nat.sub_self] at ht
  cases ht
  obtain ⟨ha, hb⟩ := htr.run ho.toSteady hsteady calls
  exact ⟨hok, hres', hend, ha, hb⟩

/-- Reading to the end and past it twice, with looks in between and a read that fails. -/
theorem undone_after_reads_past_end :
    let t₀ := (reached ['a', 'b'] [] [.move .peek]).startRecording
    let calls := [Move.next, .isNext 'b', .nextD '?', .next, .skip, .nextD '!', .hasNext]
    let t₁ := calls.foldl move t₀
    Source.Fused ['a', 'b'] ∧ (∀ m ∈ calls, m.reverts = false) ∧ (t₀.stops calls).length = 4 ∧
      (t₁.undone 3).backUp.1 = .ok () ∧
      (∃ t, (t₀ :: t₀.stops calls)[1]? = some t ∧ t.Resembles (t₁.undone 3)) ∧
      (t₁.undone 4).backUp.1 = .error .nothingToBackUp ∧
      (t₁.undone 4).replies calls = t₀.replies calls := by
  intro t₀ calls t₁
  have hs : Source.Fused ['a', 'b'] := Source.fused_of_remaining _
  have hr : ∀ m ∈ calls, m.reverts = false := by decide
  have hn : ((reached ['a', 'b'] [] [.move .peek]).startRecording.stops calls).length = 4 := by
    decide +kernel
  obtain ⟨hok, hres, hend, ha, -⟩ := undone_after_reads hs [] [.move .peek] calls hr
  rw [hn] at hok hres hend ha
  exact ⟨hs, hr, hn, hok 3 (by decide), hres 3 (by decide), congrArg Prod.fst hend, ha⟩

/-! ## Undoing in any window -/

theorem backUp_counted {σ : Type u} {t : Tape σ} {c : Char} {ahead : Lookahead σ Char}
    (he : t.endCount ≠ 0) :
    (t.consumed c ahead).backUp =
      (.ok (), { t.consumed c ahead with endCount := t.endCount - 1 }) := by
  obtain ⟨n, hn⟩ := Nat.exists_eq_succ_of_ne_zero he
  have hcount : (t.consumed c ahead).endCount = n + 1 := hn
  rw [Tape.backUp, hcount, hn]
  rfl

/-- Over a source that stays at its end, and whatever has been done since the start of a window:
where a move takes a character from the input, undoing right after it succeeds. It restores the tape
exactly if no read past the end was counted before; otherwise it takes one off that count and leaves
the character consumed. No such count is in the way if `unread` has not been used in the window. -/
theorem backUp_after_read {source : σ} (hs : Source.Fused source)
    (before : List (Lookahead.Op Char)) (history : List Op) (moves : List Move) {m : Move}
    {c : Char} :
    let t := moves.foldl move (reached source before history).startRecording
    let back := (t.move m).backUp
    t.takes m = some c →
      back.1 = .ok () ∧
      (t.Resembles back.2 ↔ t.endCount = 0) ∧
      (t.endCount ≠ 0 → back.2 = { t.move m with endCount := t.endCount - 1 }) ∧
      ((∀ d, .unread d ∉ moves) → t.endCount = 0) := by
  intro t back hc
  have hsteady := steady_reached hs before history
  have hw : Window _ t := (window_startRecording hsteady.sound).run moves
  obtain ⟨ahead, hn, he⟩ := move_of_takes hc
  have hordered : (∀ d, .unread d ∉ moves) → t.endCount = 0 := by
    intro hm
    exact ((ordered_startRecording hsteady).run hm).endCount_eq hn
  by_cases hz : t.endCount = 0
  · obtain ⟨ha, hb⟩ := backUp_consumed hw.moved.sound hw.recording hz hn
    rw [← he] at ha hb
    exact ⟨ha, ⟨fun _ => hz, fun _ => hb⟩, fun hne => absurd hz hne, hordered⟩
  · have hb : back = (.ok (), { t.move m with endCount := t.endCount - 1 }) := by
      show (t.move m).backUp = _
      rw [he]
      exact backUp_counted hz
    have hpos : back.2.position = t.position + 1 := by
      rw [hb, he]
      rfl
    refine ⟨by rw [hb], ⟨?_, fun hz' => absurd hz' hz⟩, fun _ => by rw [hb], hordered⟩
    intro hres
    rw [hres.position] at hpos
    omega

/-- A read past the end is still counted when the character before it is put back and read again.
Undoing then leaves the character consumed. -/
theorem backUp_after_read_stale_count :
    let t := [Move.next, .nextD '?', .unread 'a'].foldl move (reached ['a'] [] []).startRecording
    let back := (t.move .next).backUp
    Source.Fused ['a'] ∧ t.takes .next = some 'a' ∧ t.endCount = 1 ∧ t.position = 0 ∧
      back.1 = .ok () ∧ back.2.position = 1 ∧ back.2.recorded = ['a'] ∧ ¬t.Resembles back.2 := by
  intro t back
  have hs : Source.Fused ['a'] := Source.fused_of_remaining _
  have hc : t.takes .next = some 'a' := by decide +kernel
  have he : t.endCount = 1 := by decide +kernel
  obtain ⟨ha, hiff, -, -⟩ := backUp_after_read hs [] [] [.next, .nextD '?', .unread 'a'] hc
  refine ⟨hs, hc, he, by decide +kernel, ha, by decide +kernel, by decide +kernel, ?_⟩
  intro hres
  have hz : t.endCount = 0 := hiff.1 hres
  rw [he] at hz
  cases hz

end RewindLexer.Tape
