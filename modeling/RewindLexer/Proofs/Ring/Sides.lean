import Mathlib.Data.List.InsertIdx
import RewindLexer.Proofs.Ring.Shift

/-!
# The side that moves

An insertion and an erasure inside a ring move the items on one side of the position and leave those
on the other side in their slots. Both compare a ring with one that has an item more: an insertion
leads to the larger ring and an erasure to the smaller one, so that what is left alone is said once
for each side. Main statement: it is the longer side that is left alone, and one slot joins those of
the items or leaves them, at the end that was moved.
-/

namespace RewindLexer.Ring

universe u

variable {α : Type u} {r small large : Ring α} {xs : List α} {a : α} {i : Nat}

/-! ## Slots of items -/

/-- An item of the ring stands in the slot. -/
def Live (r : Ring α) (raw : Nat) : Prop :=
  ∃ i < r.size, r.slot i = raw

/-- The item at position `i` of `r` is at position `j` of `r'` and has kept its slot. -/
structure Stays (r r' : Ring α) (i j : Nat) : Prop where
  slot_eq : r'.slot j = r.slot i
  cell_eq : r'.cell j = r.cell i

/-- The items of `large` stand in the slots of those of `small` and in one more, which is empty in
`small`. -/
structure Joins (small large : Ring α) (raw : Nat) : Prop where
  size_eq : large.size = small.size + 1
  live_iff (s : Nat) : large.Live s ↔ small.Live s ∨ s = raw
  not_live : ¬small.Live raw
  held_eq : small.held raw = none

theorem exists_slot_eq (h : r.head < r.capacity) {raw : Nat} (hraw : raw < r.capacity) :
    ∃ i < r.capacity, r.slot i = raw := by
  simp only [slot, wrap]
  by_cases hlt : raw < r.head
  · refine ⟨raw + r.capacity - r.head, by omega, ?_⟩
    rw [if_pos (by omega)]
    omega
  · refine ⟨raw - r.head, by omega, ?_⟩
    rw [if_neg (by omega)]
    omega

theorem Holds.held_of_not_live (h : r.Holds xs) {raw : Nat} (hraw : ¬r.Live raw) :
    r.held raw = none := by
  by_cases hlt : raw < r.capacity
  · obtain ⟨i, hi, rfl⟩ := exists_slot_eq h.head_lt hlt
    have hout : r.size ≤ i := Nat.not_lt.1 fun hlt => hraw ⟨i, hlt, rfl⟩
    have hcell : r.held (r.slot i) = xs[i]? := h.cell_eq i hi
    rw [hcell, List.getElem?_eq_none (h.size_eq ▸ hout)]
  · rw [held, Array.getElem?_eq_none (Nat.not_lt.1 hlt)]
    rfl

/-- A slot joins in front if every item has moved on by one position and kept its slot. -/
theorem joins_head (hs : small.Holds xs) (hl : large.head < large.capacity)
    (hsize : large.size = small.size + 1) (hle : large.size ≤ large.capacity)
    (hslot : ∀ k < small.size, large.slot (k + 1) = small.slot k) :
    Joins small large large.head := by
  have hnot : ¬small.Live large.head := by
    rintro ⟨k, hk, he⟩
    rw [← hslot k hk, ← slot_zero hl] at he
    exact absurd (slot_inj (by omega) (by omega) he) (Nat.succ_ne_zero k)
  refine ⟨hsize, fun s => ?_, hnot, hs.held_of_not_live hnot⟩
  have hlive : small.Live s ↔ ∃ k < small.size, large.slot (k + 1) = s :=
    exists_congr fun k => and_congr_right fun hk => by rw [hslot k hk]
  rw [Live, hsize, Nat.exists_lt_succ_left, hlive, slot_zero hl, Or.comm, eq_comm (a := s)]

/-- A slot joins at the back if every item has kept its position and its slot. -/
theorem joins_tail (hs : small.Holds xs) (hsize : large.size = small.size + 1)
    (hle : large.size ≤ large.capacity) (hslot : ∀ k ≤ small.size, large.slot k = small.slot k) :
    Joins small large small.tail := by
  have htail : large.slot small.size = small.tail := by
    rw [hslot _ (Nat.le_refl _), hs.tail_eq]
  have hnot : ¬small.Live small.tail := by
    rintro ⟨k, hk, he⟩
    rw [← hslot k (Nat.le_of_lt hk), ← htail] at he
    exact absurd (slot_inj (by omega) (by omega) he) (Nat.ne_of_lt hk)
  refine ⟨hsize, fun s => ?_, hnot, hs.held_of_not_live hnot⟩
  have hlive : small.Live s ↔ ∃ k < small.size, large.slot k = s :=
    exists_congr fun k => and_congr_right fun hk => by rw [hslot k (Nat.le_of_lt hk)]
  rw [Live, hsize, Nat.exists_lt_succ_right, hlive, htail, eq_comm (a := s)]

/-! ## One side -/

/-- Between `small` and `large`, which has one more item at position `i`, only the items before that
position are moved: those behind it and the tail stay, and the slot that joins is the head. -/
structure FrontMoves (small large : Ring α) (i : Nat) : Prop where
  tail_eq : large.tail = small.tail
  stays (j : Nat) : i ≤ j → j < small.size → Stays small large j (j + 1)
  joins : Joins small large large.head

/-- Between `small` and `large`, which has one more item at position `i`, only the items behind that
position are moved: those before it and the head stay, and the slot that joins is the tail. -/
structure BackMoves (small large : Ring α) (i : Nat) : Prop where
  head_eq : large.head = small.head
  stays (j : Nat) : j < i → Stays small large j j
  joins : Joins small large small.tail

section

variable (hs : small.Holds xs) (hl : large.Holds (xs.insertIdx i a)) (hi : i ≤ xs.length)

include hs hl hi

theorem size_of_insertIdx : large.size = small.size + 1 := by
  rw [hl.size_eq, hs.size_eq, List.length_insertIdx_of_le_length hi]

variable (hcap : large.capacity = small.capacity)

include hcap

theorem frontMoves_of_slot (hslot : ∀ k < small.capacity, large.slot (k + 1) = small.slot k) :
    FrontMoves small large i := by
  have hsize := size_of_insertIdx hs hl hi
  have hle := hl.size_le
  refine ⟨?_, fun j hij hj => ⟨hslot j (by omega), ?_⟩, ?_⟩
  · rw [hl.tail_eq, hsize, hslot _ (by omega), hs.tail_eq]
  · rw [hl.cell_eq _ (by omega), hs.cell_eq _ (by omega), List.getElem?_insertIdx,
      if_neg (by omega), if_neg (by omega), Nat.add_sub_cancel]
  · exact joins_head hs hl.head_lt hsize hle fun k hk => hslot k (by omega)

theorem backMoves_of_head (hhead : large.head = small.head) : BackMoves small large i := by
  have hsize := size_of_insertIdx hs hl hi
  have hle := hl.size_le
  have hlen := hs.size_eq
  refine ⟨hhead, fun j hj => ⟨slot_congr hcap hhead j, ?_⟩, ?_⟩
  · rw [hl.cell_eq _ (by omega), hs.cell_eq _ (by omega), List.getElem?_insertIdx, if_pos hj]
  · exact joins_tail hs hsize hle fun k _ => slot_congr hcap hhead k

end

/-! ## Inserting -/

theorem head_insertAt_of_lt (hroom : r.size < r.capacity) (hi : i < r.size - i) (a : α) :
    (r.insertAt i a).2.head = r.slotBefore r.head := by
  rw [insertAt, if_neg (by omega), reserve_of_lt hroom]
  simp only [if_pos hi]
  exact (sameFrame_carryUp _ 0 i).head

theorem head_insertAt_of_le (hroom : r.size < r.capacity) (hsize : i ≤ r.size) (hi : r.size - i ≤ i)
    (a : α) : (r.insertAt i a).2.head = r.head := by
  rw [insertAt, if_neg (Nat.not_lt.2 hsize), reserve_of_lt hroom]
  simp only [if_neg (Nat.not_lt.2 hi)]
  exact (sameFrame_carryDown _ i _).head

theorem Holds.insertAt_moves (h : r.Holds xs) (hroom : r.size < r.capacity) (hi : i ≤ r.size)
    (a : α) : (i < r.size - i → FrontMoves r (r.insertAt i a).2 i) ∧
      (r.size - i ≤ i → BackMoves r (r.insertAt i a).2 i) := by
  have hlen : i ≤ xs.length := h.size_eq ▸ hi
  obtain ⟨-, hl⟩ := h.insertAt_of_le hlen a
  have hcap : (r.insertAt i a).2.capacity = r.capacity := by
    rw [capacity_insertAt_of_le hi, reserve_of_lt hroom]
  constructor
  · intro hfront
    have hhead := head_insertAt_of_lt hroom hfront a
    let moved : Ring α := { r with head := r.slotBefore r.head }
    refine frontMoves_of_slot h hl hlen hcap fun k hk => ?_
    rw [← slot_slotBefore h.head_lt r.tail r.size hk]
    exact slot_congr (r := moved) hcap hhead _
  · intro hback
    exact backMoves_of_head h hl hlen hcap (head_insertAt_of_le hroom hi hback a)

/-! ## Erasing -/

theorem head_eraseAt_of_lt (hi : i < r.size - 1 - i) :
    (r.eraseAt i).2.head = r.slotAfter r.head := by
  rw [eraseAt, if_pos (by omega)]
  simp only [if_pos hi]
  let hole : Ring α := { r with slots := r.slots.setIfInBounds (r.slot i) none }
  have hf := sameFrame_carryDown hole 0 i
  have hcap : (hole.carryDown 0 i).capacity = r.capacity :=
    hf.capacity.trans Array.size_setIfInBounds
  show (hole.carryDown 0 i).slotAfter (hole.carryDown 0 i).head = r.slotAfter r.head
  rw [hf.head, slotAfter, wrap, hcap]
  rfl

theorem head_eraseAt_of_le (hsize : i < r.size) (hi : r.size - 1 - i ≤ i) :
    (r.eraseAt i).2.head = r.head := by
  rw [eraseAt, if_pos hsize]
  simp only [if_neg (Nat.not_lt.2 hi)]
  exact (sameFrame_carryUp _ i _).head

theorem Holds.eraseAt_moves (h : r.Holds xs) (hi : i < r.size) :
    (i < r.size - 1 - i → FrontMoves (r.eraseAt i).2 r i) ∧
      (r.size - 1 - i ≤ i → BackMoves (r.eraseAt i).2 r i) := by
  have hlt : i < xs.length := h.size_eq ▸ hi
  obtain ⟨-, hs⟩ := h.eraseAt_of_lt hlt
  have hl : r.Holds ((xs.eraseIdx i).insertIdx i (xs.get ⟨i, hlt⟩)) := by
    rwa [List.get_eq_getElem, List.insertIdx_eraseIdx_getElem hlt]
  have hle : i ≤ (xs.eraseIdx i).length := by
    rw [List.length_eraseIdx_of_lt hlt]
    omega
  have hcap : r.capacity = (r.eraseAt i).2.capacity := (capacity_eraseAt r i).symm
  constructor
  · intro hfront
    have hhead := head_eraseAt_of_lt hfront
    let moved : Ring α := { r with head := r.slotAfter r.head }
    refine frontMoves_of_slot hs hl hle hcap fun k hk => ?_
    rw [← slot_slotAfter h.head_lt r.tail r.size (hcap ▸ hk)]
    exact (slot_congr (r := moved) hcap.symm hhead k).symm
  · intro hback
    exact backMoves_of_head hs hl hle hcap (head_eraseAt_of_le hi hback).symm

/-! ## The shorter side -/

/-- Inserting into a ring with room, and erasing, move the shorter side of the position: the side in
front if it is the shorter one, and the side at the back otherwise. The tail, or the head, and the
items on the other side stay where they are. The slot opened at the end that was moved is among the
slots of the items afterwards, and the slot given up there is not and is left empty. -/
theorem moves_shorter_side (h : r.WellFormed) (i : Nat) :
    (r.size < r.capacity → i ≤ r.size → ∀ a,
        (i < r.size - i → FrontMoves r (r.insertAt i a).2 i) ∧
          (r.size - i ≤ i → BackMoves r (r.insertAt i a).2 i)) ∧
      (i < r.size →
        (i < r.size - 1 - i → FrontMoves (r.eraseAt i).2 r i) ∧
          (r.size - 1 - i ≤ i → BackMoves (r.eraseAt i).2 r i)) :=
  ⟨fun hroom hi a => h.holds.insertAt_moves hroom hi a, fun hi => h.holds.eraseAt_moves hi⟩

/-- A ring with one empty slot, whose items stand on both sides of the end of its array. -/
def gapped : Ring Nat :=
  ⟨#[some 7, none, some 5, some 6], 2, 1, 3⟩

/-- An item inserted behind the first of three moves that one alone; erasing the second of three, as
near to the front as to the back, moves the third. -/
theorem moves_shorter_side_gapped :
    gapped.WellFormed ∧ gapped.size < gapped.capacity ∧
      FrontMoves gapped (gapped.insertAt 1 9).2 1 ∧ BackMoves (gapped.eraseAt 1).2 gapped 1 := by
  have hgapped : gapped.WellFormed := ⟨by decide, by decide, by decide, by decide, by decide⟩
  obtain ⟨hinsert, herase⟩ := moves_shorter_side hgapped 1
  exact ⟨hgapped, by decide, (hinsert (by decide) (by decide) 9).1 (by decide),
    (herase (by decide)).2 (by decide)⟩

end RewindLexer.Ring
