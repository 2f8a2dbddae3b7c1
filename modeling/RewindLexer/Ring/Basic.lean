/-!
# Rings

A ring is a growable double-ended queue on a wrap-around array. Its items stand in the slots
`head, head + 1, …`, counted modulo the capacity, so they form one run or two runs split at the end
of the array; every other slot is empty. `Ring.toList` is the sequence that a ring stands for.

An operation that can fail answers with an error beside the ring, which it then leaves as it was.
-/

namespace RewindLexer

universe u v

/-- Why an operation on a ring fails. -/
inductive RingError where
  /-- There is no item to look at or to take. -/
  | empty
  /-- The position lies outside the items. -/
  | outOfRange (index size : Nat)
  deriving DecidableEq, Repr

/-- What is told about a failure. -/
def RingError.message : RingError → String
  | .empty => "operation on an empty deque"
  | .outOfRange index size =>
    "index " ++ toString index ++ " out of range for deque of length " ++ toString size

/-- A double-ended queue on a wrap-around array. -/
structure Ring (α : Type u) where
  /-- The array; a slot that holds no item is `none`. -/
  slots : Array (Option α)
  /-- The slot of the first item. -/
  head : Nat
  /-- The slot after the last item. -/
  tail : Nat
  /-- The number of items. -/
  size : Nat

namespace Ring

variable {α : Type u} {β : Type v}

/-! ## Making a ring -/

/-- An empty ring with room for `n` items, and for one at least. -/
def ofCapacity (n : Nat) : Ring α :=
  ⟨Array.replicate (max n 1) none, 0, 0, 0⟩

/-- The room of a ring made without a wish. -/
def defaultCapacity : Nat := 4

/-- An empty ring. -/
def empty : Ring α :=
  ofCapacity defaultCapacity

instance : Inhabited (Ring α) := ⟨empty⟩

/-! ## Where the items stand -/

/-- The number of slots. -/
def capacity (r : Ring α) : Nat :=
  r.slots.size

/-- Whether there are no items. -/
def isEmpty (r : Ring α) : Bool :=
  r.size == 0

/-- Brings a slot number below twice the capacity back into the array. -/
def wrap (r : Ring α) (raw : Nat) : Nat :=
  if r.capacity ≤ raw then raw - r.capacity else raw

/-- The slot of the item at a position. -/
def slot (r : Ring α) (index : Nat) : Nat :=
  r.wrap (r.head + index)

/-- The slot after a slot. -/
def slotAfter (r : Ring α) (raw : Nat) : Nat :=
  r.wrap (raw + 1)

/-- The slot before a slot. -/
def slotBefore (r : Ring α) (raw : Nat) : Nat :=
  r.wrap (raw + r.capacity - 1)

/-- What a slot holds. -/
def held (r : Ring α) (raw : Nat) : Option α :=
  r.slots[raw]?.join

/-- The items from first to last. -/
def toList (r : Ring α) : List α :=
  (List.range r.size).filterMap fun i => r.held (r.slot i)

/-! ## Reading and replacing items -/

/-- The item at a position. -/
def get (r : Ring α) (index : Nat) : Except RingError α :=
  if index < r.size then
    match r.held (r.slot index) with
    | some a => .ok a
    | none => .error (.outOfRange index r.size)
  else
    .error (.outOfRange index r.size)

/-- Puts a new item for the one at a position and answers what `f` says about the old one. -/
def update (r : Ring α) (index : Nat) (f : α → β × α) : Except RingError β × Ring α :=
  match r.get index with
  | .error e => (.error e, r)
  | .ok a =>
    (.ok (f a).1, { r with slots := r.slots.setIfInBounds (r.slot index) (some (f a).2) })

/-- Applies a function to the item at a position and answers the new item. -/
def modify (r : Ring α) (index : Nat) (f : α → α) : Except RingError α × Ring α :=
  r.update index fun a => (f a, f a)

/-- Replaces the item at a position and answers the old one. -/
def set (r : Ring α) (index : Nat) (value : α) : Except RingError α × Ring α :=
  r.update index fun a => (a, value)

/-- The first item. -/
def first (r : Ring α) : Except RingError α :=
  if r.isEmpty then .error .empty else r.get 0

/-- The last item. -/
def last (r : Ring α) : Except RingError α :=
  if r.isEmpty then .error .empty else r.get (r.size - 1)

/-! ## Growth -/

/-- The capacity to move to when room for `wanted` items is missing. -/
def growth (wanted : Nat) : Nat :=
  16 + wanted * 3 / 2

/-- The same items in a new array, from its first slot on. -/
def relaid (r : Ring α) (capacity : Nat) : Ring α where
  slots := Array.ofFn fun i : Fin capacity => if i < r.size then r.held (r.slot i) else none
  head := 0
  tail := if r.size = capacity then 0 else r.size
  size := r.size

/-- Makes room for one more item. -/
def reserve (r : Ring α) : Ring α :=
  if r.capacity < r.size + 1 then r.relaid (growth (max (r.size + 1) r.capacity)) else r

/-! ## The two ends -/

/-- Adds an item in front. -/
def pushFront (r : Ring α) (value : α) : Ring α :=
  let r := r.reserve
  let head := r.slotBefore r.head
  { r with slots := r.slots.setIfInBounds head (some value), head := head, size := r.size + 1 }

/-- Adds an item at the end. -/
def pushBack (r : Ring α) (value : α) : Ring α :=
  let r := r.reserve
  { r with
    slots := r.slots.setIfInBounds r.tail (some value)
    tail := r.slotAfter r.tail
    size := r.size + 1 }

/-- The item taken from a slot, as the answer of an operation that takes one. -/
def taken (e : RingError) : Option α → Except RingError α
  | some a => .ok a
  | none => .error e

/-- Takes the first item off. -/
def popFront (r : Ring α) : Except RingError α × Ring α :=
  if r.isEmpty then
    (.error .empty, r)
  else
    (taken .empty (r.held r.head),
      { r with
        slots := r.slots.setIfInBounds r.head none
        head := r.slotAfter r.head
        size := r.size - 1 })

/-- Takes the last item off. -/
def popBack (r : Ring α) : Except RingError α × Ring α :=
  if r.isEmpty then
    (.error .empty, r)
  else
    let tail := r.slotBefore r.tail
    (taken .empty (r.held tail),
      { r with slots := r.slots.setIfInBounds tail none, tail := tail, size := r.size - 1 })

/-- Adds items at the end, one after the other. -/
def append (r : Ring α) (values : List α) : Ring α :=
  values.foldl pushBack r

/-- A ring with the given items. -/
def ofList (values : List α) : Ring α :=
  empty.append values

/-- A ring with the same items and the same capacity, laid out from the first slot on. -/
def copy (r : Ring α) : Ring α :=
  (ofCapacity r.capacity).append r.toList

/-- Removes every item and keeps the capacity. -/
def clear (r : Ring α) : Ring α :=
  ⟨r.slots.map fun _ => none, 0, 0, 0⟩

/-! ## Positions inside -/

/-- Exchanges what two positions hold. -/
def swap (r : Ring α) (i j : Nat) : Ring α :=
  { r with slots := r.slots.swapIfInBounds (r.slot i) (r.slot j) }

/-- Carries what position `i` holds up by `n` positions; each one passed moves down by one. -/
def carryUp (r : Ring α) (i : Nat) : Nat → Ring α
  | 0 => r
  | n + 1 => (r.swap i (i + 1)).carryUp (i + 1) n

/-- Carries what position `i + n` holds down to position `i`; each one passed moves up by one. -/
def carryDown (r : Ring α) (i : Nat) : Nat → Ring α
  | 0 => r
  | n + 1 => (r.swap (i + n + 1) (i + n)).carryDown i n

/-- Adds an item at a position and moves the shorter of the two sides apart. -/
def insertAt (r : Ring α) (index : Nat) (value : α) : Except RingError Unit × Ring α :=
  if r.size < index then
    (.error (.outOfRange index r.size), r)
  else
    let r := r.reserve
    let r :=
      if index < r.size - index then
        carryUp { r with head := r.slotBefore r.head } 0 index
      else
        carryDown { r with tail := r.slotAfter r.tail } index (r.size - index)
    (.ok (),
      { r with
        slots := r.slots.setIfInBounds (r.slot index) (some value)
        size := r.size + 1 })

/-- Takes the item at a position out and closes the gap from the shorter of the two sides. -/
def eraseAt (r : Ring α) (index : Nat) : Except RingError α × Ring α :=
  if index < r.size then
    let value := r.held (r.slot index)
    let hole := { r with slots := r.slots.setIfInBounds (r.slot index) none }
    let closed :=
      if index < r.size - 1 - index then
        let r := hole.carryDown 0 index
        { r with head := r.slotAfter r.head }
      else
        let r := hole.carryUp index (r.size - 1 - index)
        { r with tail := r.slotBefore r.tail }
    (taken (.outOfRange index r.size) value, { closed with size := r.size - 1 })
  else
    (.error (.outOfRange index r.size), r)

/-! ## Search and comparison -/

/-- The position of the first item equal to a value. -/
def indexOf [BEq α] (r : Ring α) (value : α) : Option Nat :=
  r.toList.idxOf? value

/-- Whether some item equals a value. -/
def contains [BEq α] (r : Ring α) (value : α) : Bool :=
  (r.indexOf value).isSome

/-- Rings are compared by their items alone. -/
instance [BEq α] : BEq (Ring α) where
  beq a b := a.size == b.size && a.toList == b.toList

/-- The items in brackets, each written by `text`. -/
def describe (r : Ring α) (text : α → String) : String :=
  "[" ++ ", ".intercalate (r.toList.map text) ++ "]"

/-! ## Counting items -/

@[simp]
theorem size_reserve (r : Ring α) : r.reserve.size = r.size := by
  unfold reserve
  split <;> rfl

@[simp]
theorem size_pushFront (r : Ring α) (a : α) : (r.pushFront a).size = r.size + 1 := by
  simp [pushFront]

@[simp]
theorem size_pushBack (r : Ring α) (a : α) : (r.pushBack a).size = r.size + 1 := by
  simp [pushBack]

theorem size_popFront (r : Ring α) : r.popFront.2.size = r.size - 1 := by
  unfold popFront
  split
  · simp_all [isEmpty]
  · rfl

theorem size_pos_of_popFront {r r' : Ring α} {a : α} (h : r.popFront = (.ok a, r')) :
    0 < r.size := by
  unfold popFront at h
  split at h
  · simp at h
  · simp_all [isEmpty, Nat.pos_iff_ne_zero]

end Ring

end RewindLexer
