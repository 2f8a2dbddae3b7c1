import RewindLexer.Ring.Basic

/-!
# Well-formed rings

A ring is well formed if its counters describe its array: the items fill the slots from the head on,
the tail is the slot after them, and every other slot is empty. Rings start well formed.
-/

namespace RewindLexer.Ring

universe u

variable {α : Type u}

/-- The counters of a ring describe its array. -/
structure WellFormed (r : Ring α) : Prop where
  capacity_pos : 0 < r.capacity
  head_lt : r.head < r.capacity
  size_le : r.size ≤ r.capacity
  tail_eq : r.tail = (r.head + r.size) % r.capacity
  /-- A slot holds an item exactly if it is one of the first `size` slots from the head on. -/
  isSome_held (i : Nat) : i < r.capacity →
    (r.held ((r.head + i) % r.capacity)).isSome = decide (i < r.size)

theorem capacity_ofCapacity (n : Nat) : (ofCapacity n : Ring α).capacity = max n 1 := by
  simp [ofCapacity, capacity]

theorem held_ofCapacity (n i : Nat) : (ofCapacity n : Ring α).held i = none := by
  simp only [held, ofCapacity, Array.getElem?_replicate]
  split <;> rfl

theorem wellFormed_ofCapacity (n : Nat) : (ofCapacity n : Ring α).WellFormed where
  capacity_pos := by
    rw [capacity_ofCapacity]
    omega
  head_lt := by
    rw [capacity_ofCapacity]
    exact Nat.lt_of_lt_of_le Nat.zero_lt_one (Nat.le_max_right n 1)
  size_le := Nat.zero_le _
  tail_eq := (Nat.zero_mod _).symm
  isSome_held i _ := by
    rw [held_ofCapacity]
    rfl

/-- The slot of a position is the one that many steps after the head, around the array. -/
theorem slot_eq_mod {r : Ring α} (hlt : r.head < r.capacity) {i : Nat} (hi : i ≤ r.capacity) :
    r.slot i = (r.head + i) % r.capacity := by
  unfold slot wrap
  split
  · rename_i hle
    rcases Nat.eq_or_lt_of_le hi with rfl | hi
    · rw [Nat.add_sub_cancel, Nat.add_mod_right, Nat.mod_eq_of_lt hlt]
    · rw [Nat.mod_eq_sub_mod hle, Nat.mod_eq_of_lt (by omega)]
  · rename_i hle
    exact (Nat.mod_eq_of_lt (by omega)).symm

end RewindLexer.Ring
