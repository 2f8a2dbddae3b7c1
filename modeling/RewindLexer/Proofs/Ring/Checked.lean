import RewindLexer.Proofs.Ring.Passes

/-!
# Rings with every step checked

The operations on a ring read and write slots by number and take numbers off each other, and a slot
where an item should stand is expected to hold one. `Ring.Checked` has the same operations in a form
that stops with a fault where a slot number is outside the array, a difference would be below zero,
or such a slot is empty. Main statement of each section: on a ring whose counters describe its array
the checked operation meets no fault and does what the operation itself does.
-/

namespace RewindLexer.Ring

/-- What stops a checked operation. -/
inductive Fault where
  /-- There is no slot with the number. -/
  | outOfBounds (raw : Nat)
  /-- The second number is greater than the first one, from which it is to be taken. -/
  | belowZero (a b : Nat)
  /-- An item should stand in the slot, and it is empty. -/
  | emptySlot (raw : Nat)
  deriving DecidableEq, Repr

namespace Checked

variable {α β σ : Type}

/-! ## Slots -/

/-- The difference of two numbers. -/
def sub (a b : Nat) : Except Fault Nat :=
  if b ≤ a then pure (a - b) else throw (.belowZero a b)

def wrap (r : Ring α) (raw : Nat) : Except Fault Nat :=
  if r.capacity ≤ raw then sub raw r.capacity else pure raw

def slot (r : Ring α) (index : Nat) : Except Fault Nat :=
  wrap r (r.head + index)

def slotAfter (r : Ring α) (raw : Nat) : Except Fault Nat :=
  wrap r (raw + 1)

def slotBefore (r : Ring α) (raw : Nat) : Except Fault Nat := do
  wrap r (← sub (raw + r.capacity) 1)

/-- What a slot holds. -/
def held (r : Ring α) (raw : Nat) : Except Fault (Option α) :=
  if raw < r.capacity then pure (r.held raw) else throw (.outOfBounds raw)

/-- The item in a slot where one should stand. -/
def item (r : Ring α) (raw : Nat) : Except Fault α := do
  match ← held r raw with
  | some a => pure a
  | none => throw (.emptySlot raw)

/-- The ring after a slot has been written. -/
def write (r : Ring α) (raw : Nat) (v : Option α) : Except Fault (Ring α) :=
  if raw < r.capacity then pure { r with slots := r.slots.setIfInBounds raw v }
  else throw (.outOfBounds raw)

def swap (r : Ring α) (i j : Nat) : Except Fault (Ring α) := do
  let a ← slot r i
  let b ← slot r j
  if r.capacity ≤ a then throw (.outOfBounds a)
  if r.capacity ≤ b then throw (.outOfBounds b)
  return { r with slots := r.slots.swapIfInBounds a b }

def carryUp (r : Ring α) (i : Nat) : Nat → Except Fault (Ring α)
  | 0 => pure r
  | n + 1 => do carryUp (← swap r i (i + 1)) (i + 1) n

def carryDown (r : Ring α) (i : Nat) : Nat → Except Fault (Ring α)
  | 0 => pure r
  | n + 1 => do carryDown (← swap r (i + n + 1) (i + n)) i n

section

variable {r : Ring α} {raw i j n : Nat}

theorem sub_eq {a b : Nat} (h : b ≤ a) : sub a b = pure (a - b) :=
  if_pos h

theorem wrap_eq (r : Ring α) (raw : Nat) : wrap r raw = pure (r.wrap raw) := by
  rw [wrap, Ring.wrap]
  split
  · rename_i h
    exact sub_eq h
  · rfl

theorem slot_eq (r : Ring α) (i : Nat) : slot r i = pure (r.slot i) :=
  wrap_eq r _

theorem slotAfter_eq (r : Ring α) (raw : Nat) : slotAfter r raw = pure (r.slotAfter raw) :=
  wrap_eq r _

theorem slotBefore_eq (h : 0 < r.capacity) (raw : Nat) :
    slotBefore r raw = pure (r.slotBefore raw) := by
  rw [slotBefore, sub_eq (by omega), pure_bind]
  exact wrap_eq r _

theorem item_eq (h : raw < r.capacity) {a : α} (ha : r.held raw = some a) :
    item r raw = pure a := by
  rw [item, held, if_pos h, pure_bind, ha]

theorem write_eq (h : raw < r.capacity) (v : Option α) :
    write r raw v = pure { r with slots := r.slots.setIfInBounds raw v } :=
  if_pos h

/-- The slots keep their numbers when one of them is written. -/
theorem slotAfter_write (r : Ring α) (raw i : Nat) (v : Option α) :
    slotAfter { r with slots := r.slots.setIfInBounds i v } raw = pure (r.slotAfter raw) := by
  rw [slotAfter_eq]
  simp only [Ring.slotAfter, Ring.wrap, capacity, Array.size_setIfInBounds]
  rfl

theorem swap_eq (h : r.head < r.capacity) (hi : i < r.capacity) (hj : j < r.capacity) :
    swap r i j = pure (r.swap i j) := by
  have hi' : ¬r.capacity ≤ r.slot i := Nat.not_le.2 (slot_lt h (Nat.le_of_lt hi))
  have hj' : ¬r.capacity ≤ r.slot j := Nat.not_le.2 (slot_lt h (Nat.le_of_lt hj))
  simp only [swap, slot_eq, pure_bind, if_neg hi', if_neg hj']
  rfl

theorem carryUp_eq (h : r.head < r.capacity) (hn : i + n < r.capacity) :
    carryUp r i n = pure (r.carryUp i n) := by
  induction n generalizing r i with
  | zero => rfl
  | succ n ih =>
    have hf := sameFrame_swap r i (i + 1)
    rw [carryUp, swap_eq h (by omega) (by omega), pure_bind]
    exact ih (hf.head_lt h) (by rw [hf.capacity]; omega)

theorem carryDown_eq (h : r.head < r.capacity) (hn : i + n < r.capacity) :
    carryDown r i n = pure (r.carryDown i n) := by
  induction n generalizing r with
  | zero => rfl
  | succ n ih =>
    have hf := sameFrame_swap r (i + n + 1) (i + n)
    rw [carryDown, swap_eq h (by omega) (by omega), pure_bind]
    exact ih (hf.head_lt h) (by rw [hf.capacity]; omega)

end

/-! ## Reading and replacing -/

def get (r : Ring α) (index : Nat) : Except Fault (Except RingError α) :=
  if index < r.size then do
    return .ok (← item r (← slot r index))
  else
    pure (.error (.outOfRange index r.size))

def update (r : Ring α) (index : Nat) (f : α → β × α) :
    Except Fault (Except RingError β × Ring α) :=
  if index < r.size then do
    let raw ← slot r index
    let a ← item r raw
    return (.ok (f a).1, ← write r raw (some (f a).2))
  else
    pure (.error (.outOfRange index r.size), r)

def first (r : Ring α) : Except Fault (Except RingError α) :=
  if r.isEmpty then pure (.error .empty) else get r 0

def last (r : Ring α) : Except Fault (Except RingError α) :=
  if r.isEmpty then pure (.error .empty) else do get r (← sub r.size 1)

/-- The items from first to last, as an iterator gives them out. -/
def items (r : Ring α) : Except Fault (List α) :=
  (List.range r.size).mapM fun i => do item r (← slot r i)

section

variable {r : Ring α} {xs : List α} {i : Nat}

theorem item_of_holds (h : r.Holds xs) (hi : i < xs.length) :
    item r (r.slot i) = pure (xs.get ⟨i, hi⟩) := by
  have hcap := h.lt_capacity hi
  have hc := h.cell_eq i hcap
  rw [List.getElem?_eq_getElem hi] at hc
  exact item_eq (slot_lt h.head_lt (Nat.le_of_lt hcap)) hc

theorem get_eq (h : r.Holds xs) (i : Nat) : get r i = pure (r.get i) := by
  rw [get, h.size_eq]
  split
  · rename_i hi
    rw [slot_eq, pure_bind, item_of_holds h hi, pure_bind, h.get_of_lt hi]
  · rename_i hi
    rw [h.get_of_le (Nat.not_lt.1 hi)]

/-- Counters that promise an item in an empty slot are found out. -/
example : get (⟨#[none], 0, 0, 1⟩ : Ring Nat) 0 = .error (.emptySlot 0) := rfl

theorem update_eq (h : r.Holds xs) (i : Nat) (f : α → β × α) :
    update r i f = pure (r.update i f) := by
  rw [update, h.size_eq]
  split
  · rename_i hi
    have hslot := slot_lt h.head_lt (Nat.le_of_lt (h.lt_capacity hi))
    simp only [slot_eq, pure_bind, item_of_holds h hi, write_eq hslot, Ring.update, h.get_of_lt hi]
  · rename_i hi
    rw [h.update_of_le (Nat.not_lt.1 hi)]

theorem first_eq (h : r.Holds xs) : first r = pure r.first := by
  rw [first, Ring.first]
  split
  · rfl
  · exact get_eq h 0

theorem last_eq (h : r.Holds xs) : last r = pure r.last := by
  rw [last, Ring.last]
  split
  · rfl
  · rename_i he
    have hpos : 1 ≤ r.size := by
      rw [isEmpty, beq_iff_eq] at he
      omega
    rw [sub_eq hpos, pure_bind]
    exact get_eq h _

/-- Positions that are read one after the other give a list. -/
theorem mapM_range_eq {f : Nat → Except Fault β} {ys : List β} {n : Nat} (hn : ys.length = n)
    (h : ∀ i (hi : i < ys.length), f i = pure (ys.get ⟨i, hi⟩)) :
    (List.range n).mapM f = pure ys := by
  have htake : ∀ k ≤ ys.length, (List.range k).mapM f = pure (ys.take k) := by
    intro k hk
    induction k with
    | zero => rfl
    | succ k ih =>
      rw [List.range_succ, List.mapM_append, ih (Nat.le_of_succ_le hk), pure_bind, List.mapM_cons,
        List.mapM_nil, h k hk]
      simp [List.take_append_getElem]
  rw [← hn, htake ys.length (Nat.le_refl _), List.take_length]

theorem items_eq (h : r.Holds xs) : items r = pure r.toList := by
  rw [items, h.toList_eq]
  refine mapM_range_eq h.size_eq.symm fun i hi => ?_
  rw [slot_eq, pure_bind, item_of_holds h hi]

end

/-! ## Growth and the two ends -/

def relaid (r : Ring α) (capacity : Nat) : Except Fault (Ring α) := do
  let cells ← (List.range (min capacity r.size)).mapM fun i => do held r (← slot r i)
  return {
    slots := Array.ofFn fun i : Fin capacity => cells[i.1]?.join
    head := 0
    tail := if r.size = capacity then 0 else r.size
    size := r.size }

def reserve (r : Ring α) : Except Fault (Ring α) :=
  if r.capacity < r.size + 1 then relaid r (growth (max (r.size + 1) r.capacity)) else pure r

def pushFront (r : Ring α) (value : α) : Except Fault (Ring α) := do
  let r ← reserve r
  let head ← slotBefore r r.head
  let r ← write r head (some value)
  return { r with head := head, size := r.size + 1 }

def pushBack (r : Ring α) (value : α) : Except Fault (Ring α) := do
  let r ← reserve r
  let r ← write r r.tail (some value)
  let tail ← slotAfter r r.tail
  return { r with tail := tail, size := r.size + 1 }

def popFront (r : Ring α) : Except Fault (Except RingError α × Ring α) :=
  if r.isEmpty then
    pure (.error .empty, r)
  else do
    let a ← item r r.head
    let r ← write r r.head none
    let head ← slotAfter r r.head
    let size ← sub r.size 1
    return (.ok a, { r with head := head, size := size })

def popBack (r : Ring α) : Except Fault (Except RingError α × Ring α) :=
  if r.isEmpty then
    pure (.error .empty, r)
  else do
    let tail ← slotBefore r r.tail
    let a ← item r tail
    let r ← write r tail none
    let size ← sub r.size 1
    return (.ok a, { r with tail := tail, size := size })

def append (r : Ring α) (values : List α) : Except Fault (Ring α) :=
  values.foldlM pushBack r

def copy (r : Ring α) : Except Fault (Ring α) := do
  append (ofCapacity r.capacity) (← items r)

section

variable {r : Ring α} {xs : List α}

theorem relaid_eq (h : r.Holds xs) (n : Nat) : relaid r n = pure (r.relaid n) := by
  let cells := (List.range (min n r.size)).map fun i => r.held (r.slot i)
  have hcells : (List.range (min n r.size)).mapM (fun i => do held r (← slot r i)) =
      pure cells := by
    refine mapM_range_eq (by simp [cells]) fun i hi => ?_
    have hcap : i < r.capacity := by
      have hle := h.size_le
      simp only [cells, List.length_map, List.length_range] at hi
      omega
    rw [slot_eq, pure_bind, held, if_pos (slot_lt h.head_lt (Nat.le_of_lt hcap))]
    simp [cells]
  rw [relaid, hcells, pure_bind, Ring.relaid]
  congr 3
  funext i
  have hi := i.2
  rw [List.getElem?_map]
  split
  · rename_i hlt
    rw [List.getElem?_range (by omega)]
    rfl
  · rename_i hge
    rw [List.getElem?_eq_none (by rw [List.length_range]; omega)]
    rfl

theorem reserve_eq (h : r.Holds xs) : reserve r = pure r.reserve := by
  rw [reserve, Ring.reserve]
  split
  · exact relaid_eq h _
  · rfl

theorem pushFront_eq (h : r.Holds xs) (a : α) : pushFront r a = pure (r.pushFront a) := by
  have hr := h.reserve
  have hhead := slotBefore_head_lt hr.head_lt
  simp only [pushFront, reserve_eq h, pure_bind, slotBefore_eq (Nat.zero_lt_of_lt hr.head_lt),
    write_eq hhead]
  rfl

theorem pushBack_eq (h : r.Holds xs) (a : α) : pushBack r a = pure (r.pushBack a) := by
  have hr := h.reserve
  have htail : r.reserve.tail < r.reserve.capacity := by
    rw [hr.tail_eq]
    exact slot_lt hr.head_lt hr.size_le
  simp only [pushBack, reserve_eq h, pure_bind, write_eq htail, slotAfter_write]
  rfl

theorem popFront_eq (h : r.Holds xs) : popFront r = pure r.popFront := by
  rw [popFront, Ring.popFront, h.isEmpty_eq]
  cases xs with
  | nil => rfl
  | cons a xs =>
    have hcell := h.cell_eq 0 (Nat.zero_lt_of_lt h.head_lt)
    rw [cell, slot_zero h.head_lt, List.getElem?_cons_zero] at hcell
    have hsize : 1 ≤ r.size := by simp [h.size_eq]
    simp only [List.isEmpty_cons, Bool.false_eq_true, if_false, item_eq h.head_lt hcell, pure_bind,
      write_eq h.head_lt, slotAfter_write, sub_eq hsize, hcell]
    rfl

theorem popBack_eq (h : r.Holds xs) : popBack r = pure r.popBack := by
  rw [popBack, Ring.popBack, h.isEmpty_eq]
  rcases xs.eq_nil_or_concat' with rfl | ⟨xs, a, rfl⟩
  · rfl
  · have hempty : (xs ++ [a]).isEmpty = false := by simp
    have hsize : r.size = xs.length + 1 := by simp [h.size_eq]
    have hlast : xs.length < r.capacity := h.lt_capacity (by simp)
    have htail : r.slotBefore r.tail = r.slot xs.length := by
      rw [h.tail_eq, hsize, slotBefore_slot h.head_lt hlast]
    have hcell := h.cell_eq _ hlast
    rw [cell, List.getElem?_concat_length] at hcell
    have hslot := slot_lt h.head_lt (Nat.le_of_lt hlast)
    have hone : 1 ≤ r.size := by omega
    simp only [hempty, Bool.false_eq_true, if_false, slotBefore_eq (Nat.zero_lt_of_lt h.head_lt),
      htail, pure_bind, item_eq hslot hcell, write_eq hslot, sub_eq hone, hcell]
    rfl

theorem append_eq (h : r.Holds xs) (values : List α) :
    append r values = pure (r.append values) := by
  induction values generalizing r xs with
  | nil => rfl
  | cons a values ih =>
    rw [append, List.foldlM_cons, pushBack_eq h, pure_bind]
    exact ih (h.pushBack a)

theorem copy_eq (h : r.Holds xs) : copy r = pure r.copy := by
  rw [copy, items_eq h, pure_bind]
  exact append_eq (holds_ofCapacity _) _

end

/-! ## Positions inside -/

def insertAt (r : Ring α) (index : Nat) (value : α) :
    Except Fault (Except RingError Unit × Ring α) :=
  if r.size < index then
    pure (.error (.outOfRange index r.size), r)
  else do
    let r ← reserve r
    let behind ← sub r.size index
    let r ←
      if index < behind then do
        carryUp { r with head := ← slotBefore r r.head } 0 index
      else do
        carryDown { r with tail := ← slotAfter r r.tail } index behind
    let r ← write r (← slot r index) (some value)
    return (.ok (), { r with size := r.size + 1 })

def eraseAt (r : Ring α) (index : Nat) : Except Fault (Except RingError α × Ring α) :=
  if index < r.size then do
    let raw ← slot r index
    let a ← item r raw
    let hole ← write r raw none
    let left ← sub r.size 1
    let behind ← sub left index
    let closed ←
      if index < behind then do
        let r ← carryDown hole 0 index
        pure { r with head := ← slotAfter r r.head }
      else do
        let r ← carryUp hole index behind
        pure { r with tail := ← slotBefore r r.tail }
    return (.ok a, { closed with size := left })
  else
    pure (.error (.outOfRange index r.size), r)

section

variable {r : Ring α} {xs : List α}

theorem insertAt_eq (h : r.Holds xs) (i : Nat) (a : α) :
    insertAt r i a = pure (r.insertAt i a) := by
  rw [insertAt, Ring.insertAt]
  split
  · rfl
  · rename_i hi
    have hr := h.reserve
    have hroom := h.lt_capacity_reserve
    have hsize : r.reserve.size = r.size := size_reserve r
    have hlen := h.size_eq
    have hbehind : i ≤ r.reserve.size := by omega
    simp only [reserve_eq h, pure_bind, sub_eq hbehind]
    split
    · rename_i hfront
      let moved : Ring α := { r.reserve with head := r.reserve.slotBefore r.reserve.head }
      have hmoved : moved.head < moved.capacity := slotBefore_head_lt hr.head_lt
      have hcap : moved.capacity = r.reserve.capacity := rfl
      have hf := sameFrame_carryUp moved 0 i
      have hslot : (moved.carryUp 0 i).slot i < (moved.carryUp 0 i).capacity :=
        slot_lt (hf.head_lt hmoved) (by rw [hf.capacity]; omega)
      have hcarry := carryUp_eq (r := moved) (i := 0) (n := i) hmoved (by omega)
      simp only [slotBefore_eq (Nat.zero_lt_of_lt hr.head_lt), pure_bind]
      rw [hcarry, pure_bind, slot_eq, pure_bind, write_eq hslot]
      rfl
    · rename_i hback
      let moved : Ring α := { r.reserve with tail := r.reserve.slotAfter r.reserve.tail }
      have hcap : moved.capacity = r.reserve.capacity := rfl
      have hf := sameFrame_carryDown moved i (r.reserve.size - i)
      have hslot : (moved.carryDown i (r.reserve.size - i)).slot i <
          (moved.carryDown i (r.reserve.size - i)).capacity :=
        slot_lt (hf.head_lt hr.head_lt) (by rw [hf.capacity]; omega)
      have hcarry := carryDown_eq (r := moved) (i := i) (n := r.reserve.size - i) hr.head_lt
        (by omega)
      simp only [slotAfter_eq, pure_bind]
      rw [hcarry, pure_bind, slot_eq, pure_bind, write_eq hslot]
      rfl

theorem eraseAt_eq (h : r.Holds xs) (i : Nat) : eraseAt r i = pure (r.eraseAt i) := by
  rw [eraseAt, Ring.eraseAt]
  split
  · rename_i hi
    have hle := h.size_le
    have hraw : r.slot i < r.capacity := slot_lt h.head_lt (by omega)
    obtain ⟨a, ha⟩ : ∃ a, r.held (r.slot i) = some a := by
      have hcell := h.cell_eq i (by omega)
      rw [List.getElem?_eq_getElem (by rwa [← h.size_eq])] at hcell
      exact ⟨_, hcell⟩
    let hole : Ring α := { r with slots := r.slots.setIfInBounds (r.slot i) none }
    have hcap : hole.capacity = r.capacity := Array.size_setIfInBounds
    have hhole : hole.head < hole.capacity := by rw [hcap]; exact h.head_lt
    have hone : 1 ≤ r.size := by omega
    have hbehind : i ≤ r.size - 1 := by omega
    simp only [slot_eq, pure_bind, item_eq hraw ha, write_eq hraw, sub_eq hone, sub_eq hbehind, ha]
    split
    · have hcarry := carryDown_eq (r := hole) (i := 0) (n := i) hhole (by omega)
      rw [hcarry, pure_bind, slotAfter_eq, pure_bind]
      rfl
    · have hcarry := carryUp_eq (r := hole) (i := i) (n := r.size - 1 - i) hhole (by omega)
      have hf := sameFrame_carryUp hole i (r.size - 1 - i)
      rw [hcarry, pure_bind, slotBefore_eq (Nat.zero_lt_of_lt (hf.head_lt hhole)), pure_bind]
      rfl
  · rfl

end

end Checked

end RewindLexer.Ring
