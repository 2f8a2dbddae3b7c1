import RewindLexer.Proofs.Ring.Checked
import RewindLexer.Proofs.Ring.ListModel

/-!
# The representation of reachable rings

Whatever is done to a ring from its start on, passes of a cursor included, its counters describe its
array, and nothing that is computed on the way meets a fault. An operation depends on the counters
it finds; so one lemma says that a checked operation on a ring that holds a list meets no fault, and
the run is an induction over the actions.
-/

namespace RewindLexer.Ring

variable {α σ : Type}

/-! ## Passes of a cursor -/

namespace Cursor

variable {c : Cursor α}

theorem wellFormed_modifyCurrent (h : c.ring.WellFormed) (f : α → α) :
    (c.modifyCurrent f).2.ring.WellFormed := by
  cases hc : c.current with
  | none => rwa [modifyCurrent_of_none hc]
  | some i =>
    rw [ring_modifyCurrent hc]
    by_cases hi : i < c.ring.toList.length
    · exact (h.holds.update_of_lt hi _).2.wellFormed
    · rwa [modify, h.holds.update_of_le (Nat.not_lt.1 hi)]

theorem wellFormed_removeCurrent (h : c.ring.WellFormed) :
    c.removeCurrent.2.ring.WellFormed := by
  cases hc : c.current with
  | none => rwa [removeCurrent_of_none hc]
  | some i =>
    rw [ring_removeCurrent hc]
    by_cases hi : i < c.ring.toList.length
    · exact (h.holds.eraseAt_of_lt hi).2.wellFormed
    · rwa [h.holds.eraseAt_of_le (Nat.not_lt.1 hi)]

theorem wellFormed_answered (h : c.ring.WellFormed) (kept : Bool) :
    (c.answered kept).ring.WellFormed := by
  have hring : c.next.2.ring.WellFormed := by rwa [ring_next]
  cases kept with
  | false => exact wellFormed_removeCurrent hring
  | true => exact hring

theorem wellFormed_filterStep {keep : σ → α → Bool × σ} {s s' : σ} {c' : Cursor α}
    (h : c.ring.WellFormed) (hs : c.filterStep keep s = some (s', c')) : c'.ring.WellFormed := by
  rw [filterStep_eq] at hs
  obtain ⟨a, -, ha⟩ := Option.map_eq_some_iff.1 hs
  cases ha
  exact wellFormed_answered h _

end Cursor

/-! ## Actions -/

/-- A step of a pass that may change and remove items. -/
inductive Cursor.Move (α : Type) where
  | next
  | modify (f : α → α)
  | remove

/-- Carries a step of a pass out. -/
def Cursor.move (c : Cursor α) : Move α → Option α × Cursor α
  | .next => c.next
  | .modify f => c.modifyCurrent f
  | .remove => c.removeCurrent

/-- Carries steps of a pass out, one after the other. -/
def Cursor.moves (c : Cursor α) : List (Move α) → List (Option α) × Cursor α
  | [] => ([], c)
  | m :: ms => ((c.move m).1 :: ((c.move m).2.moves ms).1, ((c.move m).2.moves ms).2)

/-- How a ring is made. -/
inductive Start (α : Type) where
  | empty
  | ofCapacity (n : Nat)
  | ofList (values : List α)

def Start.ring : Start α → Ring α
  | .empty => Ring.empty
  | .ofCapacity n => Ring.ofCapacity n
  | .ofList values => Ring.ofList values

/-- What is done to a ring: an operation, or a pass of a cursor, as far as it goes. -/
inductive Action (α σ : Type) where
  | op (op : Op α σ)
  | pass (moves : List (Cursor.Move α))

def act [BEq α] (r : Ring α) : Action α σ → Answer α σ × Ring α
  | .op op => r.perform op
  | .pass moves => (.items (r.cursor.moves moves).1, (r.cursor.moves moves).2.ring)

/-- The ring that actions lead to. -/
def reached [BEq α] (start : Start α) (actions : List (Action α σ)) : Ring α :=
  actions.foldl (fun r action => (r.act action).2) start.ring

theorem Cursor.wellFormed_move {c : Cursor α} (h : c.ring.WellFormed) (m : Move α) :
    (c.move m).2.ring.WellFormed := by
  cases m with
  | next => rwa [move, ring_next]
  | modify f => exact wellFormed_modifyCurrent h f
  | remove => exact wellFormed_removeCurrent h

theorem Cursor.wellFormed_moves {c : Cursor α} (h : c.ring.WellFormed) (ms : List (Move α)) :
    (c.moves ms).2.ring.WellFormed := by
  induction ms generalizing c with
  | nil => exact h
  | cons m ms ih => exact ih (wellFormed_move h m)

theorem Start.wellFormed (start : Start α) : start.ring.WellFormed := by
  cases start with
  | empty => exact holds_empty.wellFormed
  | ofCapacity n => exact wellFormed_ofCapacity n
  | ofList values => exact (holds_empty.append values).wellFormed

theorem WellFormed.act [BEq α] {r : Ring α} (h : r.WellFormed) (action : Action α σ) :
    (r.act action).2.WellFormed := by
  cases action with
  | op op => exact (h.holds.perform op).2.wellFormed
  | pass moves => exact Cursor.wellFormed_moves h moves

/-! ## Checked passes -/

namespace Checked

def walkNext (w : Walk α) : Except Fault (Option α × Walk α) :=
  if w.front < w.back then do
    return ((← get w.ring w.front).toOption, { w with front := w.front + 1 })
  else
    pure (none, w)

def walkNextBack (w : Walk α) : Except Fault (Option α × Walk α) :=
  if w.front < w.back then do
    let back ← sub w.back 1
    return ((← get w.ring back).toOption, { w with back := back })
  else
    pure (none, w)

def walkTake (w : Walk α) : End → Except Fault (Option α × Walk α)
  | .front => walkNext w
  | .back => walkNextBack w

/-- Gives out items at the ends. The number of items left is computed before each one. -/
def walkTakes (w : Walk α) : List End → Except Fault (List (Option α))
  | [] => do
    let _ ← sub w.back w.front
    return []
  | e :: es => do
    let _ ← sub w.back w.front
    let (a, w) ← walkTake w e
    return a :: (← walkTakes w es)

def next (c : Cursor α) : Except Fault (Option α × Cursor α) :=
  if c.position < c.ring.size then do
    return ((← get c.ring c.position).toOption,
      { c with position := c.position + 1, current := some c.position })
  else
    pure (none, { c with current := none })

def modifyCurrent (c : Cursor α) (f : α → α) : Except Fault (Option α × Cursor α) :=
  match c.current with
  | none => pure (none, c)
  | some i => do
    let (answer, ring) ← update c.ring i fun a => (f a, f a)
    return (answer.toOption, { c with ring := ring })

def removeCurrent (c : Cursor α) : Except Fault (Option α × Cursor α) :=
  match c.current with
  | none => pure (none, c)
  | some i => do
    match ← eraseAt c.ring i with
    | (.ok a, ring) => return (some a, ⟨ring, i, none⟩)
    | (.error _, ring) => return (none, ⟨ring, c.position, none⟩)

def filterStep (keep : σ → α → Bool × σ) (s : σ) (c : Cursor α) :
    Except Fault (Option (σ × Cursor α)) := do
  match ← next c with
  | (none, _) => return none
  | (some a, c) =>
    match keep s a with
    | (true, s) => return some (s, c)
    | (false, s) => return some (s, (← removeCurrent c).2)

theorem bind_eq_ok {ε β γ : Type} {x : Except ε β} {f : β → Except ε γ} {c : γ} :
    x >>= f = .ok c ↔ ∃ b, x = .ok b ∧ f b = .ok c := by
  cases x with
  | error e => exact ⟨nofun, fun ⟨_, h, _⟩ => nomatch h⟩
  | ok b => exact ⟨fun h => ⟨b, rfl, h⟩, fun ⟨_, h, hf⟩ => Except.ok.inj h ▸ hf⟩

theorem size_of_eraseAt {r : Ring α} {i : Nat} {answer : Except RingError α × Ring α}
    (hi : i < r.size) (h : eraseAt r i = .ok answer) : answer.2.size = r.size - 1 := by
  have hone : 1 ≤ r.size := Nat.zero_lt_of_lt hi
  rw [eraseAt, if_pos hi] at h
  simp only [sub_eq hone, pure_bind, bind_eq_ok] at h
  obtain ⟨raw, -, a, -, hole, -, behind, -, h⟩ := h
  split at h
  · simp only [bind_eq_ok] at h
    obtain ⟨r', -, head, -, h⟩ := h
    exact Except.ok.inj h ▸ rfl
  · simp only [bind_eq_ok] at h
    obtain ⟨r', -, tail, -, h⟩ := h
    exact Except.ok.inj h ▸ rfl

theorem ahead_of_removeCurrent {r : Ring α} {i : Nat} {answer : Option α × Cursor α}
    (hi : i < r.size) (h : removeCurrent ⟨r, i + 1, some i⟩ = .ok answer) :
    answer.2.ahead < r.size - i := by
  simp only [removeCurrent, bind_eq_ok] at h
  obtain ⟨⟨taken, r'⟩, he, h⟩ := h
  have hsize : r'.size = r.size - 1 := size_of_eraseAt hi he
  cases taken with
  | error e =>
    rw [← Except.ok.inj h, Cursor.ahead]
    show r'.size - (i + 1) < r.size - i
    omega
  | ok a =>
    rw [← Except.ok.inj h, Cursor.ahead]
    show r'.size - i < r.size - i
    omega

theorem ahead_of_filterStep {keep : σ → α → Bool × σ} {s s' : σ} {c c' : Cursor α}
    (h : filterStep keep s c = .ok (some (s', c'))) : c'.ahead < c.ahead := by
  simp only [filterStep, bind_eq_ok] at h
  obtain ⟨⟨given, c₁⟩, hn, h⟩ := h
  rw [next] at hn
  split at hn
  · rename_i hlt
    simp only [bind_eq_ok] at hn
    obtain ⟨got, -, hn⟩ := hn
    cases Except.ok.inj hn
    cases got with
    | error e => cases Except.ok.inj h
    | ok a =>
      rcases hk : keep s a with ⟨_ | _, s₁⟩
      · simp only [Except.toOption, hk, bind_eq_ok] at h
        obtain ⟨answer, hr, h⟩ := h
        cases Except.ok.inj h
        exact ahead_of_removeCurrent hlt hr
      · simp only [Except.toOption, hk] at h
        cases Except.ok.inj h
        simp only [Cursor.ahead]
        omega
  · cases Except.ok.inj hn
    cases Except.ok.inj h

def filterRest (keep : σ → α → Bool × σ) (s : σ) (c : Cursor α) : Except Fault (σ × Ring α) :=
  match _h : filterStep keep s c with
  | .error e => .error e
  | .ok none => pure (s, c.ring)
  | .ok (some (s', c')) => filterRest keep s' c'
termination_by c.ahead
decreasing_by exact ahead_of_filterStep ‹_›

def retain (r : Ring α) (keep : σ → α → Bool × σ) (s : σ) : Except Fault (σ × Ring α) :=
  filterRest keep s r.cursor

section

variable {r : Ring α} {xs ys : List α}

theorem walkTake_eq {w : Walk α} (h : w.Spans ys) (e : End) : walkTake w e = pure (w.take e) := by
  cases e with
  | front =>
    rw [walkTake, Walk.take, walkNext, Walk.next]
    split
    · rw [get_eq h.holds, pure_bind]
    · rfl
  | back =>
    rw [walkTake, Walk.take, walkNextBack, Walk.nextBack]
    split
    · rename_i hlt
      rw [sub_eq (Nat.one_le_of_lt hlt), pure_bind, get_eq h.holds, pure_bind]
    · rfl

theorem walkTakes_eq {w : Walk α} (h : w.Spans ys) (es : List End) :
    walkTakes w es = pure (w.takes es) := by
  induction es generalizing w ys with
  | nil =>
    rw [walkTakes, sub_eq h.le]
    rfl
  | cons e es ih =>
    simp only [walkTakes, sub_eq h.le, walkTake_eq h, ih (h.take e).2, pure_bind]
    rfl

theorem next_eq {c : Cursor α} (h : c.ring.Holds xs) : next c = pure c.next := by
  rw [next, Cursor.next]
  split
  · rw [get_eq h, pure_bind]
  · rfl

theorem modifyCurrent_eq {c : Cursor α} (h : c.ring.Holds xs) (f : α → α) :
    modifyCurrent c f = pure (c.modifyCurrent f) := by
  rw [modifyCurrent, Cursor.modifyCurrent]
  cases c.current with
  | none => rfl
  | some i =>
    simp only [update_eq h, pure_bind]
    rfl

theorem removeCurrent_eq {c : Cursor α} (h : c.ring.Holds xs) :
    removeCurrent c = pure c.removeCurrent := by
  rw [removeCurrent, Cursor.removeCurrent]
  cases c.current with
  | none => rfl
  | some i =>
    simp only [eraseAt_eq h, pure_bind]
    rcases c.ring.eraseAt i with ⟨_ | a, r⟩ <;> rfl

theorem filterStep_eq {c : Cursor α} (h : c.ring.Holds xs) (keep : σ → α → Bool × σ) (s : σ) :
    filterStep keep s c = pure (c.filterStep keep s) := by
  have hring : c.next.2.ring.Holds xs := by rwa [Cursor.ring_next]
  rw [filterStep, Cursor.filterStep, next_eq h, pure_bind]
  rcases hn : c.next with ⟨_ | a, c₁⟩
  · rfl
  · rw [hn] at hring
    rcases hk : keep s a with ⟨_ | _, s₁⟩
    · simp only [hk, removeCurrent_eq hring, pure_bind]
    · simp only [hk]

theorem filterRest_of_none {keep : σ → α → Bool × σ} {s : σ} {c : Cursor α}
    (h : filterStep keep s c = .ok none) : filterRest keep s c = pure (s, c.ring) := by
  rw [filterRest]
  split <;> simp_all

theorem filterRest_of_some {keep : σ → α → Bool × σ} {s s' : σ} {c c' : Cursor α}
    (h : filterStep keep s c = .ok (some (s', c'))) :
    filterRest keep s c = filterRest keep s' c' := by
  rw [filterRest]
  split <;> simp_all

theorem filterRest_eq {c : Cursor α} (h : c.ring.WellFormed) (keep : σ → α → Bool × σ) (s : σ) :
    filterRest keep s c = pure (c.filterRest keep s) := by
  fun_induction Cursor.filterRest keep s c with
  | case1 s c hs =>
    apply filterRest_of_none
    rw [filterStep_eq h.holds, hs]
    rfl
  | case2 s c s' c' hs ih =>
    rw [← ih (Cursor.wellFormed_filterStep h hs)]
    apply filterRest_of_some
    rw [filterStep_eq h.holds, hs]
    rfl

end

/-! ## Checked actions -/

def perform [BEq α] (r : Ring α) : Op α σ → Except Fault (Answer α σ × Ring α)
  | .pushFront a => do return (.done, ← pushFront r a)
  | .pushBack a => do return (.done, ← pushBack r a)
  | .popFront => do
    let (answer, r) ← popFront r
    return (.item answer, r)
  | .popBack => do
    let (answer, r) ← popBack r
    return (.item answer, r)
  | .insertAt i a => do
    let (answer, r) ← insertAt r i a
    return (.status answer, r)
  | .eraseAt i => do
    let (answer, r) ← eraseAt r i
    return (.item answer, r)
  | .get i => do return (.item (← get r i), r)
  | .modify i f => do
    let (answer, r) ← update r i fun a => (f a, f a)
    return (.item answer, r)
  | .set i a => do
    let (answer, r) ← update r i fun b => (b, a)
    return (.item answer, r)
  | .first => do return (.item (← first r), r)
  | .last => do return (.item (← last r), r)
  | .clear => pure (.done, r.clear)
  | .append values => do return (.done, ← append r values)
  | .contains a => do return (.truth ((← items r).idxOf? a).isSome, r)
  | .indexOf a => do return (.index ((← items r).idxOf? a), r)
  | .copy => do return (.done, ← copy r)
  | .walk ends => do return (.items (← walkTakes r.walk ends), r)
  | .retain keep s => do
    let (s, r) ← retain r keep s
    return (.state s, r)

def move (c : Cursor α) : Cursor.Move α → Except Fault (Option α × Cursor α)
  | .next => next c
  | .modify f => modifyCurrent c f
  | .remove => removeCurrent c

def moves (c : Cursor α) : List (Cursor.Move α) → Except Fault (List (Option α) × Cursor α)
  | [] => pure ([], c)
  | m :: ms => do
    let (a, c) ← move c m
    let (as, c) ← moves c ms
    return (a :: as, c)

def act [BEq α] (r : Ring α) : Action α σ → Except Fault (Answer α σ × Ring α)
  | .op op => perform r op
  | .pass ms => do
    let (given, c) ← moves r.cursor ms
    return (.items given, c.ring)

def start : Start α → Except Fault (Ring α)
  | .ofList values => append empty values
  | made => pure made.ring

def reached [BEq α] (made : Start α) (actions : List (Action α σ)) : Except Fault (Ring α) := do
  actions.foldlM (fun r action => do return (← act r action).2) (← start made)

section

variable {r : Ring α}

theorem perform_eq [BEq α] (h : r.WellFormed) (op : Op α σ) :
    perform r op = pure (r.perform op) := by
  have hr := h.holds
  cases op with
  | pushFront a => simp only [perform, pushFront_eq hr, pure_bind]; rfl
  | pushBack a => simp only [perform, pushBack_eq hr, pure_bind]; rfl
  | popFront => simp only [perform, popFront_eq hr, pure_bind]; rfl
  | popBack => simp only [perform, popBack_eq hr, pure_bind]; rfl
  | insertAt i a => simp only [perform, insertAt_eq hr, pure_bind]; rfl
  | eraseAt i => simp only [perform, eraseAt_eq hr, pure_bind]; rfl
  | get i => simp only [perform, get_eq hr, pure_bind]; rfl
  | modify i f => simp only [perform, update_eq hr, pure_bind]; rfl
  | set i a => simp only [perform, update_eq hr, pure_bind]; rfl
  | first => simp only [perform, first_eq hr, pure_bind]; rfl
  | last => simp only [perform, last_eq hr, pure_bind]; rfl
  | clear => rfl
  | append values => simp only [perform, append_eq hr, pure_bind]; rfl
  | contains a => simp only [perform, items_eq hr, pure_bind]; rfl
  | indexOf a => simp only [perform, items_eq hr, pure_bind]; rfl
  | copy => simp only [perform, copy_eq hr, pure_bind]; rfl
  | walk ends => simp only [perform, walkTakes_eq hr.spans_walk, pure_bind]; rfl
  | retain keep s =>
    have hretain : retain r keep s = pure (r.retain keep s) := filterRest_eq h keep s
    simp only [perform, hretain, pure_bind]
    rfl

theorem move_eq {c : Cursor α} (h : c.ring.WellFormed) (m : Cursor.Move α) :
    move c m = pure (c.move m) := by
  cases m with
  | next => exact next_eq h.holds
  | modify f => exact modifyCurrent_eq h.holds f
  | remove => exact removeCurrent_eq h.holds

theorem moves_eq {c : Cursor α} (h : c.ring.WellFormed) (ms : List (Cursor.Move α)) :
    moves c ms = pure (c.moves ms) := by
  induction ms generalizing c with
  | nil => rfl
  | cons m ms ih =>
    simp only [moves, move_eq h, ih (Cursor.wellFormed_move h m), pure_bind]
    rfl

theorem act_eq [BEq α] (h : r.WellFormed) (action : Action α σ) :
    act r action = pure (r.act action) := by
  cases action with
  | op op => exact perform_eq h op
  | pass ms =>
    have hmoves : moves r.cursor ms = pure (r.cursor.moves ms) := moves_eq h ms
    simp only [act, hmoves, pure_bind]
    rfl

theorem start_eq (made : Start α) : start made = pure made.ring := by
  cases made with
  | empty => rfl
  | ofCapacity n => rfl
  | ofList values => exact append_eq holds_empty values

end

end Checked

/-! ## Reachable rings -/

/-- Every slot that holds an item is one of the first `size` slots from the head on. -/
theorem WellFormed.isSome_held_iff {r : Ring α} (h : r.WellFormed) (raw : Nat) :
    (r.held raw).isSome = true ↔ ∃ i < r.size, raw = (r.head + i) % r.capacity := by
  constructor
  · intro hraw
    have hlt : raw < r.capacity := by
      by_contra hge
      rw [held, Array.getElem?_eq_none (Nat.not_lt.1 hge)] at hraw
      cases hraw
    have hhead := h.head_lt
    -- the position of the slot, counted around the array from the head on
    obtain ⟨i, hi, rfl⟩ : ∃ i < r.capacity, raw = (r.head + i) % r.capacity := by
      by_cases hle : r.head ≤ raw
      · refine ⟨raw - r.head, by omega, ?_⟩
        rw [Nat.add_sub_cancel' hle, Nat.mod_eq_of_lt hlt]
      · refine ⟨raw + r.capacity - r.head, by omega, ?_⟩
        rw [Nat.add_sub_cancel' (by omega), Nat.add_mod_right, Nat.mod_eq_of_lt hlt]
    rw [h.isSome_held i hi, decide_eq_true_iff] at hraw
    exact ⟨i, hraw, rfl⟩
  · rintro ⟨i, hi, rfl⟩
    rw [h.isSome_held i (Nat.lt_of_lt_of_le hi h.size_le), decide_eq_true_iff]
    exact hi

theorem WellFormed.tail_lt {r : Ring α} (h : r.WellFormed) : r.tail < r.capacity := by
  rw [h.tail_eq]
  exact Nat.mod_lt _ h.capacity_pos

/-- A run of actions from a well-formed ring meets no fault and leaves a well-formed ring. -/
theorem WellFormed.run [BEq α] {r : Ring α} (h : r.WellFormed) (actions : List (Action α σ)) :
    (actions.foldl (fun r action => (r.act action).2) r).WellFormed ∧
      actions.foldlM (fun r action => do return (← Checked.act r action).2) r =
        (.ok (actions.foldl (fun r action => (r.act action).2) r) : Except Fault (Ring α)) := by
  induction actions generalizing r with
  | nil => exact ⟨h, rfl⟩
  | cons action actions ih =>
    rw [List.foldlM_cons, Checked.act_eq h, pure_bind, pure_bind]
    exact ih (h.act action)

/-- An item stands at every position below the size, and the operations find it there. -/
theorem WellFormed.exists_item {r : Ring α} (h : r.WellFormed) {i : Nat} (hi : i < r.size) :
    ∃ a, r.get i = .ok a ∧ (∀ f : α → α × α, (r.update i f).1 = .ok (f a).1) ∧
      (r.eraseAt i).1 = .ok a := by
  have hlt : i < r.toList.length := by rwa [← h.holds.size_eq]
  exact ⟨_, h.holds.get_of_lt hlt, fun f => (h.holds.update_of_lt hlt f).1,
    (h.holds.eraseAt_of_lt hlt).1⟩

theorem WellFormed.exists_first {r : Ring α} (h : r.WellFormed) (hpos : 0 < r.size) :
    ∃ a, r.popFront.1 = .ok a := by
  have hr := h.holds
  have hsize := hr.size_eq
  cases hxs : r.toList with
  | nil =>
    rw [hxs, List.length_nil] at hsize
    omega
  | cons a xs => exact ⟨a, (hxs ▸ hr).popFront_cons.1⟩

theorem WellFormed.exists_last {r : Ring α} (h : r.WellFormed) (hpos : 0 < r.size) :
    ∃ a, r.popBack.1 = .ok a := by
  have hr := h.holds
  have hsize := hr.size_eq
  rcases r.toList.eq_nil_or_concat' with hnil | ⟨xs, a, hxs⟩
  · rw [hnil, List.length_nil] at hsize
    omega
  · exact ⟨a, (hxs ▸ hr).popBack_concat.1⟩

/-- The representation of every ring that can be reached: its counters are within its array and the
slots with items are the `size` ones from the head on. No slot number is outside the array, no
difference is below zero and no slot where an item should stand is empty, on the way to the ring and
in whatever is done to it next; and so the operations that take or show an item answer with it at
every position below the size, and at both ends unless the ring is empty. -/
theorem reached_representation [BEq α] (start : Start α) (actions : List (Action α σ)) :
    let r := reached start actions
    (1 ≤ r.capacity ∧ r.head < r.capacity ∧ r.tail < r.capacity ∧ r.size ≤ r.capacity ∧
        r.tail = (r.head + r.size) % r.capacity ∧
        ∀ raw, (r.held raw).isSome = true ↔ ∃ i < r.size, raw = (r.head + i) % r.capacity) ∧
      (Checked.reached start actions = .ok r ∧
        (∀ action : Action α σ, Checked.act r action = .ok (r.act action)) ∧
        Checked.items r = .ok r.toList) ∧
      (∀ i < r.size, ∃ a, r.get i = .ok a ∧ (∀ f : α → α × α, (r.update i f).1 = .ok (f a).1) ∧
        (r.eraseAt i).1 = .ok a) ∧
      (0 < r.size → (∃ a, r.popFront.1 = .ok a) ∧ ∃ a, r.popBack.1 = .ok a) := by
  intro r
  obtain ⟨hr, hrun⟩ := start.wellFormed.run actions
  have hchecked : Checked.reached start actions = .ok r := by
    rw [Checked.reached, Checked.start_eq, pure_bind]
    exact hrun
  refine ⟨⟨hr.capacity_pos, hr.head_lt, hr.tail_lt, hr.size_le, hr.tail_eq, hr.isSome_held_iff⟩,
    ⟨hchecked, Checked.act_eq hr, Checked.items_eq hr.holds⟩, ?_, ?_⟩
  · intro i hi
    exact hr.exists_item hi
  · intro hpos
    exact ⟨hr.exists_first hpos, hr.exists_last hpos⟩

end RewindLexer.Ring
