import Mathlib.Data.List.Basic
import RewindLexer.Ring.WellFormed

/-!
# What a ring holds

`r.Holds xs` says at once that the counters of `r` describe its array and that its items are `xs`:
position `i`, counted around the array from the head on, holds `xs[i]?`. Positions are those of
`Ring.slot`, so that all arithmetic about them is linear. A well-formed ring holds its list of items
and nothing else.
-/

namespace RewindLexer.Ring

universe u

variable {α : Type u} {r : Ring α} {xs : List α}

/-! ## Positions -/

/-- What stands at a position, counted around the array from the head on. -/
def cell (r : Ring α) (i : Nat) : Option α :=
  r.held (r.slot i)

theorem wrap_of_lt {raw : Nat} (h : raw < r.capacity) : r.wrap raw = raw :=
  if_neg (Nat.not_le.2 h)

theorem wrap_of_le {raw : Nat} (h : r.capacity ≤ raw) : r.wrap raw = raw - r.capacity :=
  if_pos h

theorem slot_congr {r' : Ring α} (hc : r'.capacity = r.capacity) (hh : r'.head = r.head) (i : Nat) :
    r'.slot i = r.slot i := by
  simp only [slot, wrap, hc, hh]

theorem slot_lt {i : Nat} (h : r.head < r.capacity) (hi : i ≤ r.capacity) :
    r.slot i < r.capacity := by
  simp only [slot, wrap]
  split <;> omega

theorem slot_zero (h : r.head < r.capacity) : r.slot 0 = r.head := by
  simp only [slot, wrap]
  split <;> omega

theorem slot_inj {i j : Nat} (hi : i < r.capacity) (hj : j < r.capacity) (h : r.slot i = r.slot j) :
    i = j := by
  simp only [slot, wrap] at h
  split at h <;> split at h <;> omega

theorem slotAfter_slot {i : Nat} (h : r.head < r.capacity) (hi : i < r.capacity) :
    r.slotAfter (r.slot i) = r.slot (i + 1) := by
  simp only [slotAfter, slot, wrap]
  split <;> split <;> split <;> omega

theorem slotBefore_slot {i : Nat} (h : r.head < r.capacity) (hi : i < r.capacity) :
    r.slotBefore (r.slot (i + 1)) = r.slot i := by
  simp only [slotBefore, slot, wrap]
  split <;> split <;> split <;> omega

theorem slotBefore_head_lt (h : r.head < r.capacity) : r.slotBefore r.head < r.capacity := by
  simp only [slotBefore, wrap]
  split <;> omega

theorem slotAfter_head_lt (h : r.head < r.capacity) : r.slotAfter r.head < r.capacity := by
  simp only [slotAfter, wrap]
  split <;> omega

/-! ## Writing one position -/

theorem held_setIfInBounds (slots : Array (Option α)) (head tail size raw i : Nat) (v : Option α)
    (hraw : raw < slots.size) :
    (⟨slots.setIfInBounds raw v, head, tail, size⟩ : Ring α).held i =
      if i = raw then v else (⟨slots, head, tail, size⟩ : Ring α).held i := by
  simp only [held, Array.getElem?_setIfInBounds]
  by_cases hi : i = raw
  · subst hi
    simp [hraw]
  · simp [hi, Ne.symm hi]

theorem cell_setIfInBounds (h : r.head < r.capacity) {i j : Nat} (hi : i < r.capacity)
    (hj : j < r.capacity) (tail size : Nat) (v : Option α) :
    (⟨r.slots.setIfInBounds (r.slot i) v, r.head, tail, size⟩ : Ring α).cell j =
      if j = i then v else r.cell j := by
  have hslot : (⟨r.slots.setIfInBounds (r.slot i) v, r.head, tail, size⟩ : Ring α).slot j =
      r.slot j := by
    apply slot_congr
    · exact Array.size_setIfInBounds
    · rfl
  rw [cell, hslot, held_setIfInBounds _ _ _ _ _ _ _ (slot_lt h (Nat.le_of_lt hi))]
  by_cases hij : j = i
  · rw [if_pos hij, if_pos (by rw [hij])]
  · rw [if_neg hij, if_neg fun he => hij (slot_inj hj hi he)]
    rfl

/-! ## Contents -/

/-- The counters of a ring describe its array, and its items are `xs`. -/
structure Holds (r : Ring α) (xs : List α) : Prop where
  head_lt : r.head < r.capacity
  size_eq : r.size = xs.length
  size_le : r.size ≤ r.capacity
  tail_eq : r.tail = r.slot r.size
  cell_eq (i : Nat) : i < r.capacity → r.cell i = xs[i]?

theorem filterMap_range_getElem? (xs : List α) :
    (List.range xs.length).filterMap (fun i => xs[i]?) = xs := by
  induction xs with
  | nil => rfl
  | cons a xs ih =>
    rw [List.length_cons, List.range_succ_eq_map, List.filterMap_cons, List.filterMap_map]
    simpa [Function.comp_def] using ih

theorem Holds.toList_eq (h : r.Holds xs) : r.toList = xs := by
  have hcells : r.toList = (List.range r.size).filterMap (fun i => xs[i]?) := by
    refine List.filterMap_congr fun i hi => ?_
    have := List.mem_range.1 hi
    exact h.cell_eq i (by have := h.size_le; omega)
  rw [hcells, h.size_eq, filterMap_range_getElem?]

theorem Holds.wellFormed (h : r.Holds xs) : r.WellFormed where
  capacity_pos := Nat.zero_lt_of_lt h.head_lt
  head_lt := h.head_lt
  size_le := h.size_le
  tail_eq := by rw [h.tail_eq, slot_eq_mod h.head_lt h.size_le]
  isSome_held i hi := by
    rw [← slot_eq_mod h.head_lt (Nat.le_of_lt hi)]
    have hc := h.cell_eq i hi
    rw [cell] at hc
    rw [hc, h.size_eq, Bool.eq_iff_iff, isSome_getElem?, decide_eq_true_iff]

/-- The first positions of a ring, as long as they hold something, make a list. -/
theorem exists_list_of_isSome {n : Nat} (h : ∀ i < n, (r.cell i).isSome = true) :
    ∃ xs : List α, xs.length = n ∧ ∀ i < n, r.cell i = xs[i]? := by
  induction n with
  | zero => exact ⟨[], rfl, fun i hi => absurd hi (Nat.not_lt_zero i)⟩
  | succ n ih =>
    obtain ⟨xs, hlen, hxs⟩ := ih fun i hi => h i (Nat.lt_succ_of_lt hi)
    obtain ⟨a, ha⟩ := Option.isSome_iff_exists.1 (h n (Nat.lt_succ_self n))
    refine ⟨xs ++ [a], by simp [hlen], fun i hi => ?_⟩
    rcases Nat.lt_or_eq_of_le (Nat.le_of_lt_succ hi) with hlt | rfl
    · rw [List.getElem?_append_left (by omega), hxs i hlt]
    · rw [ha, ← hlen, List.getElem?_concat_length]

theorem WellFormed.holds (h : r.WellFormed) : r.Holds r.toList := by
  have hsome : ∀ i < r.capacity, (r.cell i).isSome = decide (i < r.size) := by
    intro i hi
    rw [cell, slot_eq_mod h.head_lt (Nat.le_of_lt hi)]
    exact h.isSome_held i hi
  obtain ⟨xs, hlen, hxs⟩ := exists_list_of_isSome (r := r) (n := r.size) fun i hi => by
    rw [hsome i (Nat.lt_of_lt_of_le hi h.size_le), decide_eq_true hi]
  have hholds : r.Holds xs :=
    { head_lt := h.head_lt
      size_eq := hlen.symm
      size_le := h.size_le
      tail_eq := by rw [h.tail_eq, slot_eq_mod h.head_lt h.size_le]
      cell_eq := by
        intro i hi
        by_cases hs : i < r.size
        · exact hxs i hs
        · rw [List.getElem?_eq_none (by omega)]
          have := hsome i hi
          rwa [decide_eq_false hs, Option.isSome_eq_false_iff, Option.isNone_iff_eq_none] at this }
  rwa [hholds.toList_eq]

/-- A full ring whose items stand on both sides of the end of its array. -/
def straddling : Ring Nat :=
  ⟨#[some 7, some 5, some 6], 1, 1, 3⟩

theorem wellFormed_straddling : straddling.WellFormed :=
  ⟨by decide, by decide, by decide, by decide, by decide⟩

example : straddling.toList = [5, 6, 7] := by decide

end RewindLexer.Ring
