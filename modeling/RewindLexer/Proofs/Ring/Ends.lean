import RewindLexer.Proofs.Ring.Contents

/-!
# The ends of a ring

What reading, growing, and adding and taking items at the two ends do to the items of a ring.
-/

namespace RewindLexer.Ring

universe u v

variable {α : Type u} {β : Type v} {r : Ring α} {xs : List α} {a : α}

/-! ## Moving the head

Positions are counted from the head, so that moving it renumbers them. -/

theorem slot_slotBefore (h : r.head < r.capacity) (tail size : Nat) {i : Nat}
    (hi : i < r.capacity) :
    (⟨r.slots, r.slotBefore r.head, tail, size⟩ : Ring α).slot (i + 1) = r.slot i := by
  simp only [slot, slotBefore, wrap, capacity] at h hi ⊢
  grind

theorem slot_slotAfter (h : r.head < r.capacity) (tail size : Nat) {i : Nat}
    (hi : i < r.capacity) :
    (⟨r.slots, r.slotAfter r.head, tail, size⟩ : Ring α).slot i = r.slot (i + 1) := by
  simp only [slot, slotAfter, wrap, capacity] at h hi ⊢
  grind

theorem cell_slotBefore (h : r.head < r.capacity) (tail size : Nat) {i : Nat}
    (hi : i < r.capacity) :
    (⟨r.slots, r.slotBefore r.head, tail, size⟩ : Ring α).cell (i + 1) = r.cell i := by
  rw [cell, slot_slotBefore h tail size hi]
  rfl

theorem cell_slotAfter (h : r.head < r.capacity) (tail size : Nat) {i : Nat}
    (hi : i < r.capacity) :
    (⟨r.slots, r.slotAfter r.head, tail, size⟩ : Ring α).cell i = r.cell (i + 1) := by
  rw [cell, slot_slotAfter h tail size hi]
  rfl

/-- The position after the last one is the first one again. -/
theorem cell_capacity (h : r.head < r.capacity) : r.cell r.capacity = r.cell 0 := by
  rw [cell, cell, slot_zero h, slot, wrap_of_le (Nat.le_add_left _ _), Nat.add_sub_cancel]

/-! ## Making and clearing -/

theorem holds_ofCapacity (n : Nat) : (ofCapacity n : Ring α).Holds [] := by
  have h := (wellFormed_ofCapacity (α := α) n).holds
  rwa [show (ofCapacity n : Ring α).toList = [] from rfl] at h

theorem holds_empty : (empty : Ring α).Holds [] :=
  holds_ofCapacity defaultCapacity

theorem Holds.clear (h : r.Holds xs) : r.clear.Holds [] where
  head_lt := by
    have := Nat.zero_lt_of_lt h.head_lt
    simpa [Ring.clear, capacity] using this
  size_eq := rfl
  size_le := Nat.zero_le _
  tail_eq := by simp [Ring.clear, slot, wrap]
  cell_eq i _ := by
    simp only [cell, held, Ring.clear, Array.getElem?_map, List.getElem?_nil]
    generalize r.slots[slot _ i]? = found
    cases found <;> rfl

/-! ## Reading and replacing -/

theorem Holds.isEmpty_eq (h : r.Holds xs) : r.isEmpty = xs.isEmpty := by
  rw [isEmpty, h.size_eq]
  cases xs <;> rfl

theorem Holds.lt_capacity (h : r.Holds xs) {i : Nat} (hi : i < xs.length) : i < r.capacity :=
  Nat.lt_of_lt_of_le (h.size_eq ▸ hi) h.size_le

theorem Holds.get_of_lt (h : r.Holds xs) {i : Nat} (hi : i < xs.length) :
    r.get i = .ok (xs.get ⟨i, hi⟩) := by
  have hc : r.held (r.slot i) = xs[i]? := h.cell_eq i (h.lt_capacity hi)
  rw [get, h.size_eq, if_pos hi, hc, List.getElem?_eq_getElem hi]
  rfl

theorem Holds.get_of_le (h : r.Holds xs) {i : Nat} (hi : xs.length ≤ i) :
    r.get i = .error (.outOfRange i xs.length) := by
  rw [get, h.size_eq, if_neg (Nat.not_lt.2 hi)]

theorem Holds.toOption_get (h : r.Holds xs) (i : Nat) : (r.get i).toOption = xs[i]? := by
  by_cases hi : i < xs.length
  · rw [h.get_of_lt hi, List.getElem?_eq_getElem hi]
    rfl
  · rw [h.get_of_le (Nat.not_lt.1 hi), List.getElem?_eq_none (Nat.not_lt.1 hi)]
    rfl

theorem Holds.set_slot (h : r.Holds xs) {i : Nat} (hi : i < xs.length) (a : α) :
    ({ r with slots := r.slots.setIfInBounds (r.slot i) (some a) } : Ring α).Holds
      (xs.set i a) := by
  have hcap : ({ r with slots := r.slots.setIfInBounds (r.slot i) (some a) } : Ring α).capacity =
      r.capacity := Array.size_setIfInBounds
  refine ⟨by rw [hcap]; exact h.head_lt, by simp [h.size_eq], by rw [hcap]; exact h.size_le, ?_, ?_⟩
  · exact h.tail_eq.trans (slot_congr hcap rfl _).symm
  · intro j hj
    rw [hcap] at hj
    rw [cell_setIfInBounds h.head_lt (h.lt_capacity hi) hj, h.cell_eq j hj, List.getElem?_set]
    by_cases hij : j = i
    · subst hij
      simp [hi]
    · simp [hij, Ne.symm hij]

theorem Holds.update_of_lt (h : r.Holds xs) {i : Nat} (hi : i < xs.length) (f : α → β × α) :
    (r.update i f).1 = .ok (f (xs.get ⟨i, hi⟩)).1 ∧
      (r.update i f).2.Holds (xs.set i (f (xs.get ⟨i, hi⟩)).2) := by
  rw [update, h.get_of_lt hi]
  exact ⟨rfl, h.set_slot hi _⟩

theorem Holds.update_of_le (h : r.Holds xs) {i : Nat} (hi : xs.length ≤ i) (f : α → β × α) :
    r.update i f = (.error (.outOfRange i xs.length), r) := by
  rw [update, h.get_of_le hi]

/-! ## Growth -/

theorem capacity_relaid (r : Ring α) (n : Nat) : (r.relaid n).capacity = n := by
  simp [relaid, capacity]

theorem slot_relaid (r : Ring α) {n i : Nat} (hi : i < n) : (r.relaid n).slot i = i := by
  have hhead : (r.relaid n).head = 0 := rfl
  rw [slot, hhead, Nat.zero_add, wrap_of_lt (by rwa [capacity_relaid])]

theorem Holds.relaid (h : r.Holds xs) {n : Nat} (hn : xs.length ≤ n) (hpos : 0 < n) :
    (r.relaid n).Holds xs where
  head_lt := by
    rw [capacity_relaid]
    exact hpos
  size_eq := h.size_eq
  size_le := by
    rw [capacity_relaid]
    exact h.size_eq ▸ hn
  tail_eq := by
    have hhead : (r.relaid n).head = 0 := rfl
    have hsize : (r.relaid n).size = xs.length := h.size_eq
    have htail : (r.relaid n).tail = if xs.length = n then 0 else xs.length := by
      rw [← h.size_eq]
      rfl
    rw [htail, hsize, slot, hhead, Nat.zero_add]
    split
    · rename_i he
      rw [wrap_of_le (by rw [capacity_relaid]; omega), capacity_relaid, he, Nat.sub_self]
    · rw [wrap_of_lt (by rw [capacity_relaid]; omega)]
  cell_eq i hi := by
    rw [capacity_relaid] at hi
    rw [cell, slot_relaid r hi, held]
    simp only [Ring.relaid, Array.getElem?_ofFn, hi, ↓reduceDIte, Option.join_some, h.size_eq]
    split
    · rename_i hlt
      exact h.cell_eq i (h.lt_capacity hlt)
    · rename_i hlt
      rw [List.getElem?_eq_none (Nat.not_lt.1 hlt)]

theorem Holds.reserve (h : r.Holds xs) : r.reserve.Holds xs := by
  have hsize := h.size_eq
  unfold Ring.reserve
  split
  · exact h.relaid (by simp only [growth]; omega) (by simp only [growth]; omega)
  · exact h

theorem Holds.lt_capacity_reserve (h : r.Holds xs) : xs.length < r.reserve.capacity := by
  have hsize := h.size_eq
  unfold Ring.reserve
  split
  · rw [capacity_relaid, growth]
    omega
  · omega

/-! ## Adding -/

/-- A ring whose positions hold the items of a list with one item to be added, except that item. -/
theorem holds_of_gap {i : Nat} (hi : i ≤ xs.length) (hh : r.head < r.capacity)
    (hsize : r.size = xs.length) (hroom : xs.length < r.capacity)
    (htail : r.tail = r.slot (xs.length + 1))
    (hcell : ∀ j < r.capacity, j ≠ i → r.cell j = (xs.insertIdx i a)[j]?) :
    ({ r with
      slots := r.slots.setIfInBounds (r.slot i) (some a)
      size := r.size + 1 } : Ring α).Holds (xs.insertIdx i a) := by
  have hlen : (xs.insertIdx i a).length = xs.length + 1 := List.length_insertIdx_of_le_length hi a
  have hcap : ({ r with
      slots := r.slots.setIfInBounds (r.slot i) (some a)
      size := r.size + 1 } : Ring α).capacity = r.capacity := Array.size_setIfInBounds
  refine ⟨by rw [hcap]; exact hh, by rw [hlen, ← hsize], ?_, ?_, ?_⟩
  · rw [hcap, hsize]
    exact hroom
  · rw [slot_congr (r := r) hcap rfl, hsize]
    exact htail
  · intro j hj
    rw [hcap] at hj
    rw [cell_setIfInBounds hh (by omega) hj]
    split
    · rename_i he
      rw [he, List.getElem?_insertIdx_self, if_pos hi]
    · rename_i hne
      exact hcell j hj hne

theorem Holds.pushBack (h : r.Holds xs) (a : α) : (r.pushBack a).Holds (xs ++ [a]) := by
  have hr := h.reserve
  have hroom := h.lt_capacity_reserve
  have htail : r.reserve.tail = r.reserve.slot xs.length := hr.size_eq ▸ hr.tail_eq
  let moved : Ring α := { r.reserve with tail := r.reserve.slotAfter r.reserve.tail }
  have hpush : r.pushBack a =
      { moved with
        slots := moved.slots.setIfInBounds (moved.slot xs.length) (some a)
        size := moved.size + 1 } := by
    simp only [Ring.pushBack, htail, moved]
    rfl
  rw [hpush, ← List.insertIdx_length_self]
  refine holds_of_gap (Nat.le_refl _) hr.head_lt hr.size_eq hroom ?_ ?_
  · show r.reserve.slotAfter r.reserve.tail = r.reserve.slot (xs.length + 1)
    rw [htail, slotAfter_slot hr.head_lt hroom]
  · intro j hj hne
    rw [List.insertIdx_length_self, List.getElem?_append]
    refine (hr.cell_eq j hj).trans ?_
    split
    · rfl
    · rw [List.getElem?_eq_none (by omega), List.getElem?_eq_none (by simp; omega)]

theorem Holds.pushFront (h : r.Holds xs) (a : α) : (r.pushFront a).Holds (a :: xs) := by
  have hr := h.reserve
  have hroom := h.lt_capacity_reserve
  -- the new item goes to position 0 of the ring with its head moved back
  let moved : Ring α := { r.reserve with head := r.reserve.slotBefore r.reserve.head }
  have hmoved : moved.head < moved.capacity := slotBefore_head_lt hr.head_lt
  have hpush : r.pushFront a =
      { moved with
        slots := moved.slots.setIfInBounds (moved.slot 0) (some a)
        size := moved.size + 1 } := by
    rw [slot_zero hmoved]
    rfl
  rw [hpush, ← List.insertIdx_zero]
  refine holds_of_gap (Nat.zero_le _) hmoved hr.size_eq hroom ?_ ?_
  · rw [slot_slotBefore hr.head_lt _ _ hroom, ← hr.size_eq]
    exact hr.tail_eq
  · intro j hj hne
    obtain ⟨k, rfl⟩ := Nat.exists_eq_succ_of_ne_zero hne
    rw [cell_slotBefore hr.head_lt _ _ (Nat.lt_of_succ_lt hj), hr.cell_eq k (Nat.lt_of_succ_lt hj)]
    rfl

theorem size_append (r : Ring α) (values : List α) :
    (r.append values).size = r.size + values.length := by
  induction values generalizing r with
  | nil => rfl
  | cons a values ih =>
    have hrest := ih (r.pushBack a)
    rw [size_pushBack, Nat.add_assoc, Nat.add_comm 1] at hrest
    exact hrest

theorem Holds.append (h : r.Holds xs) (values : List α) :
    (r.append values).Holds (xs ++ values) := by
  induction values generalizing r xs with
  | nil => simpa [Ring.append] using h
  | cons a values ih =>
    have := ih (h.pushBack a)
    rwa [List.append_assoc] at this

theorem Holds.copy (h : r.Holds xs) : r.copy.Holds xs := by
  rw [Ring.copy, h.toList_eq]
  exact (holds_ofCapacity r.capacity).append xs

/-! ## Taking off -/

/-- A ring whose first position is empty, once its head has moved on. -/
theorem holds_of_headAfter {n : Nat} (hn : n = xs.length) (hh : r.head < r.capacity)
    (hlt : n < r.capacity) (htail : r.tail = r.slot (n + 1))
    (hcell : ∀ j < r.capacity, r.cell j = if j = 0 then none else xs[j - 1]?) :
    ({ r with head := r.slotAfter r.head, size := n } : Ring α).Holds xs := by
  refine ⟨slotAfter_head_lt hh, hn, Nat.le_of_lt hlt, ?_, ?_⟩
  · rw [slot_slotAfter hh _ _ hlt]
    exact htail
  · intro j hj
    have hj : j < r.capacity := hj
    rw [cell_slotAfter hh _ _ hj]
    by_cases hlast : j + 1 = r.capacity
    · rw [hlast, cell_capacity hh, hcell 0 (by omega), if_pos rfl, List.getElem?_eq_none (by omega)]
    · rw [hcell (j + 1) (by omega), if_neg (Nat.succ_ne_zero j), Nat.add_sub_cancel]

/-- A ring whose last position is empty, once its tail has moved back. -/
theorem holds_of_tailBefore {n : Nat} (hn : n = xs.length) (hh : r.head < r.capacity)
    (hlt : n < r.capacity) (htail : r.tail = r.slot (n + 1))
    (hcell : ∀ j < r.capacity, r.cell j = xs[j]?) :
    ({ r with tail := r.slotBefore r.tail, size := n } : Ring α).Holds xs := by
  refine ⟨hh, hn, Nat.le_of_lt hlt, ?_, hcell⟩
  rw [htail, slotBefore_slot hh hlt]
  rfl

theorem Holds.popFront_cons (h : r.Holds (a :: xs)) :
    r.popFront.1 = .ok a ∧ r.popFront.2.Holds xs := by
  have hpos : 0 < r.capacity := Nat.zero_lt_of_lt h.head_lt
  have hhead : r.held r.head = some a := by
    have := h.cell_eq 0 hpos
    rwa [cell, slot_zero h.head_lt] at this
  have hempty : r.isEmpty = false := by rw [h.isEmpty_eq]; rfl
  -- the ring with its first slot emptied, before its head moves on
  let hole : Ring α := { r with slots := r.slots.setIfInBounds (r.slot 0) none }
  have hcap : hole.capacity = r.capacity := Array.size_setIfInBounds
  have hsize : r.size - 1 = xs.length := by rw [h.size_eq]; rfl
  have hpop : r.popFront =
      (.ok a, { hole with head := hole.slotAfter hole.head, size := xs.length }) := by
    have hafter : hole.slotAfter hole.head = r.slotAfter r.head := by
      simp only [slotAfter, wrap, hcap]
      rfl
    rw [popFront, hempty, hhead, hafter, hsize]
    simp only [hole, slot_zero h.head_lt]
    rfl
  rw [hpop]
  refine ⟨rfl, holds_of_headAfter rfl ?_ ?_ ?_ ?_⟩
  · rw [hcap]
    exact h.head_lt
  · rw [hcap]
    exact h.lt_capacity (Nat.lt_succ_self _)
  · rw [slot_congr (r := r) hcap rfl, ← List.length_cons, ← h.size_eq]
    exact h.tail_eq
  · intro j hj
    rw [hcap] at hj
    rw [cell_setIfInBounds h.head_lt hpos hj, h.cell_eq j hj]
    cases j with
    | zero => rfl
    | succ j => rfl

theorem Holds.popFront_nil (h : r.Holds []) : r.popFront = (.error .empty, r) := by
  rw [popFront, h.isEmpty_eq]
  rfl

theorem Holds.popBack_concat (h : r.Holds (xs ++ [a])) :
    r.popBack.1 = .ok a ∧ r.popBack.2.Holds xs := by
  have hsize : r.size = xs.length + 1 := by simp [h.size_eq]
  have hlast : xs.length < r.capacity := h.lt_capacity (by simp)
  have htail : r.slotBefore r.tail = r.slot xs.length := by
    rw [h.tail_eq, hsize, slotBefore_slot h.head_lt hlast]
  have hheld : r.held (r.slot xs.length) = some a := by
    have := h.cell_eq _ hlast
    rwa [cell, List.getElem?_concat_length] at this
  have hempty : r.isEmpty = false := by rw [h.isEmpty_eq]; simp
  -- the ring with its last slot emptied, before its tail moves back
  let hole : Ring α := { r with slots := r.slots.setIfInBounds (r.slot xs.length) none }
  have hcap : hole.capacity = r.capacity := Array.size_setIfInBounds
  have hpop : r.popBack =
      (.ok a, { hole with tail := hole.slotBefore hole.tail, size := xs.length }) := by
    have hbefore : hole.slotBefore hole.tail = r.slotBefore r.tail := by
      simp only [slotBefore, wrap, hcap]
      rfl
    rw [hbefore, htail]
    simp only [popBack, hempty, htail, hheld, hsize]
    rfl
  rw [hpop]
  refine ⟨rfl, holds_of_tailBefore rfl ?_ ?_ ?_ ?_⟩
  · rw [hcap]
    exact h.head_lt
  · rwa [hcap]
  · rw [slot_congr (r := r) hcap rfl, ← hsize]
    exact h.tail_eq
  · intro j hj
    rw [hcap] at hj
    rw [cell_setIfInBounds h.head_lt hlast hj, h.cell_eq j hj, List.getElem?_append]
    grind

theorem Holds.popBack_nil (h : r.Holds []) : r.popBack = (.error .empty, r) := by
  rw [popBack, h.isEmpty_eq]
  rfl

/-! ## Capacity

A ring that has room does not grow, and nothing but an added item makes one grow. -/

theorem reserve_of_lt (h : r.size < r.capacity) : r.reserve = r :=
  if_neg (Nat.not_lt.2 h)

theorem capacity_pushFront (r : Ring α) (a : α) : (r.pushFront a).capacity = r.reserve.capacity :=
  Array.size_setIfInBounds

theorem capacity_pushBack (r : Ring α) (a : α) : (r.pushBack a).capacity = r.reserve.capacity :=
  Array.size_setIfInBounds

theorem capacity_popFront (r : Ring α) : r.popFront.2.capacity = r.capacity := by
  unfold popFront
  split
  · rfl
  · exact Array.size_setIfInBounds

theorem capacity_popBack (r : Ring α) : r.popBack.2.capacity = r.capacity := by
  unfold popBack
  split
  · rfl
  · exact Array.size_setIfInBounds

theorem capacity_update (r : Ring α) (i : Nat) (f : α → β × α) :
    (r.update i f).2.capacity = r.capacity := by
  unfold update
  split
  · rfl
  · exact Array.size_setIfInBounds

theorem capacity_clear (r : Ring α) : r.clear.capacity = r.capacity :=
  Array.size_map

end RewindLexer.Ring
