import RewindLexer.Proofs.Ring.Ends

/-!
# Inserting and erasing inside a ring

Both operations carry one cell along a stretch of positions, by exchanges with its neighbours, and
so shift the stretch by one. What the stretch holds afterwards is said once for each direction; from
it follow the items after an insertion and after an erasure, whichever side was moved.
-/

namespace RewindLexer.Ring

universe u

variable {α : Type u} {r : Ring α} {xs : List α} {a : α}

/-! ## Exchanges -/

/-- Only the array differs, and not in its size. -/
structure SameFrame (r r' : Ring α) : Prop where
  head : r'.head = r.head
  tail : r'.tail = r.tail
  size : r'.size = r.size
  capacity : r'.capacity = r.capacity

theorem SameFrame.trans {r₁ r₂ r₃ : Ring α} (h : SameFrame r₁ r₂) (h' : SameFrame r₂ r₃) :
    SameFrame r₁ r₃ :=
  ⟨h'.head.trans h.head, h'.tail.trans h.tail, h'.size.trans h.size, h'.capacity.trans h.capacity⟩

theorem SameFrame.head_lt {r' : Ring α} (h : SameFrame r r') (hr : r.head < r.capacity) :
    r'.head < r'.capacity := by
  rw [h.head, h.capacity]
  exact hr

theorem SameFrame.slot_eq {r' : Ring α} (h : SameFrame r r') (i : Nat) : r'.slot i = r.slot i :=
  slot_congr h.capacity h.head i

theorem sameFrame_swap (r : Ring α) (i j : Nat) : SameFrame r (r.swap i j) :=
  ⟨rfl, rfl, rfl, Array.size_swapIfInBounds⟩

theorem sameFrame_carryUp (r : Ring α) (i n : Nat) : SameFrame r (r.carryUp i n) := by
  induction n generalizing r i with
  | zero => exact ⟨rfl, rfl, rfl, rfl⟩
  | succ n ih => exact (sameFrame_swap r i (i + 1)).trans (ih _ _)

theorem sameFrame_carryDown (r : Ring α) (i n : Nat) : SameFrame r (r.carryDown i n) := by
  induction n generalizing r with
  | zero => exact ⟨rfl, rfl, rfl, rfl⟩
  | succ n ih => exact (sameFrame_swap r (i + n + 1) (i + n)).trans (ih _)

theorem cell_swap (h : r.head < r.capacity) {i j k : Nat} (hi : i < r.capacity)
    (hj : j < r.capacity) (hk : k < r.capacity) :
    (r.swap i j).cell k = if k = i then r.cell j else if k = j then r.cell i else r.cell k := by
  have hslot : ∀ {m : Nat}, m < r.capacity → r.slot m < r.slots.size :=
    fun hm => slot_lt h (Nat.le_of_lt hm)
  have hheld : (r.swap i j).held (r.slot k) = if r.slot k = r.slot i then r.held (r.slot j)
      else if r.slot k = r.slot j then r.held (r.slot i) else r.held (r.slot k) := by
    have hk' : r.slot k < (r.slots.swapIfInBounds (r.slot i) (r.slot j)).size := by
      rw [Array.size_swapIfInBounds]
      exact hslot hk
    simp only [held, swap, Array.getElem?_eq_getElem hk', Array.getElem_swapIfInBounds, hslot hi,
      hslot hj, hslot hk, Array.getElem?_eq_getElem, and_true]
    split
    · rfl
    · split <;> rfl
  rw [cell, (sameFrame_swap r i j).slot_eq, hheld]
  by_cases hki : k = i
  · rw [if_pos hki, if_pos (by rw [hki])]
    rfl
  · rw [if_neg hki, if_neg fun he => hki (slot_inj hk hi he)]
    by_cases hkj : k = j
    · rw [if_pos hkj, if_pos (by rw [hkj])]
      rfl
    · rw [if_neg hkj, if_neg fun he => hkj (slot_inj hk hj he)]
      rfl

/-- What is carried up goes to the end of the stretch; the rest of the stretch moves down. -/
theorem cell_carryUp (h : r.head < r.capacity) {i n j : Nat} (hn : i + n < r.capacity)
    (hj : j < r.capacity) :
    (r.carryUp i n).cell j =
      if j < i ∨ i + n < j then r.cell j else if j = i + n then r.cell i else r.cell (j + 1) := by
  induction n generalizing r i with
  | zero =>
    rw [carryUp]
    split
    · rfl
    · rw [if_pos (by omega), show j = i by omega]
  | succ n ih =>
    have hf := sameFrame_swap r i (i + 1)
    have hcell : ∀ {k}, k < r.capacity → (r.swap i (i + 1)).cell k =
        if k = i then r.cell (i + 1) else if k = i + 1 then r.cell i else r.cell k :=
      fun hk => cell_swap h (by omega) (by omega) hk
    rw [carryUp, ih (hf.head_lt h) (by rw [hf.capacity]; omega) (by rwa [hf.capacity])]
    rcases Nat.lt_trichotomy j i with hlt | rfl | hgt
    · rw [if_pos (by omega), hcell hj, if_neg (by omega), if_neg (by omega), if_pos (by omega)]
    · rw [if_pos (by omega), hcell hj, if_pos rfl, if_neg (by omega), if_neg (by omega)]
    · rcases Nat.lt_trichotomy j (i + 1 + n) with hlt | rfl | hgt'
      · rw [if_neg (by omega), if_neg (by omega), hcell (by omega), if_neg (by omega),
          if_neg (by omega), if_neg (by omega), if_neg (by omega)]
      · rw [if_neg (by omega), if_pos rfl, hcell (by omega), if_neg (by omega), if_pos rfl,
          if_neg (by omega), if_pos (by omega)]
      · rw [if_pos (by omega), hcell hj, if_neg (by omega), if_neg (by omega), if_pos (by omega)]

/-- What is carried down goes to the start of the stretch; the rest of the stretch moves up. -/
theorem cell_carryDown (h : r.head < r.capacity) {i n j : Nat} (hn : i + n < r.capacity)
    (hj : j < r.capacity) :
    (r.carryDown i n).cell j =
      if j < i ∨ i + n < j then r.cell j else if j = i then r.cell (i + n) else r.cell (j - 1) := by
  induction n generalizing r with
  | zero =>
    rw [carryDown]
    split
    · rfl
    · rw [if_pos (by omega), show j = i by omega, Nat.add_zero]
  | succ n ih =>
    have hf := sameFrame_swap r (i + n + 1) (i + n)
    have hcell : ∀ {k}, k < r.capacity → (r.swap (i + n + 1) (i + n)).cell k =
        if k = i + n + 1 then r.cell (i + n) else if k = i + n then r.cell (i + n + 1)
        else r.cell k :=
      fun hk => cell_swap h (by omega) (by omega) hk
    rw [carryDown, ih (hf.head_lt h) (by rw [hf.capacity]; omega) (by rwa [hf.capacity])]
    rcases Nat.lt_trichotomy j i with hlt | rfl | hgt
    · rw [if_pos (by omega), hcell hj, if_neg (by omega), if_neg (by omega), if_pos (by omega)]
    · rw [if_neg (by omega), if_pos rfl, hcell (by omega), if_neg (by omega), if_pos rfl,
        if_neg (by omega), if_pos rfl, Nat.add_assoc]
    · rcases Nat.lt_trichotomy j (i + n + 1) with hlt | rfl | hgt'
      · rw [if_neg (by omega), if_neg (by omega), hcell (by omega), if_neg (by omega),
          if_neg (by omega), if_neg (by omega), if_neg (by omega)]
      · rw [if_pos (by omega), hcell hj, if_pos rfl, if_neg (by omega), if_neg (by omega),
          Nat.add_sub_cancel]
      · rw [if_pos (by omega), hcell hj, if_neg (by omega), if_neg (by omega), if_pos (by omega)]

/-! ## Inserting -/

theorem Holds.insertAt_of_le (h : r.Holds xs) {i : Nat} (hi : i ≤ xs.length) (a : α) :
    (r.insertAt i a).1 = .ok () ∧ (r.insertAt i a).2.Holds (xs.insertIdx i a) := by
  have hr := h.reserve
  have hroom := h.lt_capacity_reserve
  have hsize : r.reserve.size = xs.length := hr.size_eq
  rw [insertAt, if_neg (by rw [h.size_eq]; omega)]
  refine ⟨rfl, ?_⟩
  simp only
  split
  · rename_i hfront
    let moved : Ring α := { r.reserve with head := r.reserve.slotBefore r.reserve.head }
    have hmoved : moved.head < moved.capacity := slotBefore_head_lt hr.head_lt
    have hf := sameFrame_carryUp moved 0 i
    have hcap : (moved.carryUp 0 i).capacity = r.reserve.capacity := hf.capacity
    refine holds_of_gap hi (hf.head_lt hmoved) (hf.size.trans hsize) (by rwa [hcap]) ?_ ?_
    · rw [hf.tail, hf.slot_eq, slot_slotBefore hr.head_lt _ _ hroom, ← hsize]
      exact hr.tail_eq
    · intro j hj hne
      rw [hcap] at hj
      rw [cell_carryUp hmoved (Nat.lt_of_le_of_lt (by omega) hroom) hj, List.getElem?_insertIdx]
      rcases Nat.lt_or_gt_of_ne hne with hlt | hgt
      · rw [if_neg (by omega), if_neg (by omega), if_pos hlt,
          cell_slotBefore hr.head_lt _ _ (by omega), hr.cell_eq j hj]
      · obtain ⟨k, rfl⟩ : ∃ k, j = k + 1 := ⟨j - 1, by omega⟩
        rw [if_pos (by omega), if_neg (by omega), if_neg (by omega), Nat.add_sub_cancel,
          cell_slotBefore hr.head_lt _ _ (by omega), hr.cell_eq k (by omega)]
  · rename_i hback
    let moved : Ring α := { r.reserve with tail := r.reserve.slotAfter r.reserve.tail }
    have hf := sameFrame_carryDown moved i (r.reserve.size - i)
    have hcap : (moved.carryDown i (r.reserve.size - i)).capacity = r.reserve.capacity :=
      hf.capacity
    refine holds_of_gap hi (hf.head_lt hr.head_lt) (hf.size.trans hsize) (by rwa [hcap]) ?_ ?_
    · rw [hf.tail, hf.slot_eq]
      show r.reserve.slotAfter r.reserve.tail = r.reserve.slot (xs.length + 1)
      rw [hr.tail_eq, hsize, slotAfter_slot hr.head_lt hroom]
    · intro j hj hne
      rw [hcap] at hj
      have hcell : ∀ k < r.reserve.capacity, moved.cell k = xs[k]? := hr.cell_eq
      have hend : i + (r.reserve.size - i) < moved.capacity :=
        Nat.lt_of_le_of_lt (by omega) hroom
      rw [cell_carryDown (r := moved) hr.head_lt hend hj, List.getElem?_insertIdx]
      rcases Nat.lt_or_gt_of_ne hne with hlt | hgt
      · rw [if_pos (by omega), if_pos hlt, hcell j hj]
      · rw [if_neg (Nat.not_lt_of_gt hgt), if_neg hne, if_neg hne, hcell j hj,
          hcell (j - 1) (by omega)]
        split
        · rw [List.getElem?_eq_none (by omega), List.getElem?_eq_none (by omega)]
        · rfl

theorem Holds.insertAt_of_lt (h : r.Holds xs) {i : Nat} (hi : xs.length < i) (a : α) :
    r.insertAt i a = (.error (.outOfRange i xs.length), r) := by
  rw [insertAt, h.size_eq, if_pos hi]

theorem capacity_insertAt_of_le {i : Nat} (hi : i ≤ r.size) (a : α) :
    (r.insertAt i a).2.capacity = r.reserve.capacity := by
  rw [insertAt, if_neg (Nat.not_lt.2 hi)]
  refine Array.size_setIfInBounds.trans ?_
  split
  · exact (sameFrame_carryUp _ 0 i).capacity
  · exact (sameFrame_carryDown _ i _).capacity

/-! ## Erasing -/

theorem Holds.eraseAt_of_lt (h : r.Holds xs) {i : Nat} (hi : i < xs.length) :
    (r.eraseAt i).1 = .ok (xs.get ⟨i, hi⟩) ∧ (r.eraseAt i).2.Holds (xs.eraseIdx i) := by
  have hicap := h.lt_capacity hi
  have hsize := h.size_eq
  have hle := h.size_le
  have hlen : r.size - 1 = (xs.eraseIdx i).length := by
    rw [hsize, List.length_eraseIdx_of_lt hi]
  have htail : r.tail = r.slot (r.size - 1 + 1) := by
    rw [Nat.sub_add_cancel (by omega)]
    exact h.tail_eq
  have hvalue : r.held (r.slot i) = some (xs.get ⟨i, hi⟩) := by
    have := h.cell_eq i hicap
    rwa [List.getElem?_eq_getElem hi] at this
  let hole : Ring α := { r with slots := r.slots.setIfInBounds (r.slot i) none }
  have hcap : hole.capacity = r.capacity := Array.size_setIfInBounds
  have hhole : hole.head < hole.capacity := by rw [hcap]; exact h.head_lt
  have hcell : ∀ j < r.capacity, hole.cell j = if j = i then none else xs[j]? := by
    intro j hj
    rw [cell_setIfInBounds h.head_lt hicap hj, h.cell_eq j hj]
  rw [eraseAt, if_pos (by rwa [hsize])]
  refine ⟨by rw [hvalue]; rfl, ?_⟩
  simp only
  split
  · rename_i hfront
    have hf := sameFrame_carryDown hole 0 i
    have hfcap : (hole.carryDown 0 i).capacity = r.capacity := hf.capacity.trans hcap
    refine holds_of_headAfter hlen (hf.head_lt hhole) (by omega) ?_ ?_
    · rw [slot_congr (r := r) hfcap hf.head]
      exact hf.tail.trans htail
    · intro j hj
      rw [hfcap] at hj
      rw [cell_carryDown hhole (by omega) (by rwa [hcap]), hcell j hj,
        hcell (0 + i) (by omega), hcell (j - 1) (by omega), List.getElem?_eraseIdx]
      grind
  · rename_i hback
    have hf := sameFrame_carryUp hole i (r.size - 1 - i)
    have hfcap : (hole.carryUp i (r.size - 1 - i)).capacity = r.capacity := hf.capacity.trans hcap
    refine holds_of_tailBefore hlen (hf.head_lt hhole) (by omega) ?_ ?_
    · rw [slot_congr (r := r) hfcap hf.head]
      exact hf.tail.trans htail
    · intro j hj
      rw [hfcap] at hj
      rw [cell_carryUp hhole (by omega) (by rwa [hcap]), hcell j hj, hcell i hicap,
        List.getElem?_eraseIdx]
      by_cases hlast : j + 1 < r.capacity
      · rw [hcell (j + 1) hlast]
        grind
      · grind

theorem Holds.eraseAt_of_le (h : r.Holds xs) {i : Nat} (hi : xs.length ≤ i) :
    r.eraseAt i = (.error (.outOfRange i xs.length), r) := by
  rw [eraseAt, h.size_eq, if_neg (Nat.not_lt.2 hi)]

theorem capacity_eraseAt (r : Ring α) (i : Nat) : (r.eraseAt i).2.capacity = r.capacity := by
  unfold eraseAt
  split
  · have hhole : ({ r with slots := r.slots.setIfInBounds (r.slot i) none } : Ring α).capacity =
        r.capacity := Array.size_setIfInBounds
    simp only
    split
    · exact (sameFrame_carryDown _ 0 i).capacity.trans hhole
    · exact (sameFrame_carryUp _ i _).capacity.trans hhole
  · rfl

end RewindLexer.Ring
