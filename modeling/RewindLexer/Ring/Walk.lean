import RewindLexer.Ring.Basic

/-!
# Walking a ring from both ends

A walk stands between two positions of a ring. It gives out items at its front and at its back, and
ends when the two meet.
-/

namespace RewindLexer.Ring

universe u

variable {α : Type u}

/-- A pass over the items `front ≤ i < back` of a ring. -/
structure Walk (α : Type u) where
  ring : Ring α
  /-- The position given out next at the front. -/
  front : Nat
  /-- The position after the one given out next at the back. -/
  back : Nat

/-- A pass over all items. -/
def walk (r : Ring α) : Walk α :=
  ⟨r, 0, r.size⟩

namespace Walk

/-- Gives out the item at the front. -/
def next (w : Walk α) : Option α × Walk α :=
  if w.front < w.back then
    ((w.ring.get w.front).toOption, { w with front := w.front + 1 })
  else
    (none, w)

/-- Gives out the item at the back. -/
def nextBack (w : Walk α) : Option α × Walk α :=
  if w.front < w.back then
    ((w.ring.get (w.back - 1)).toOption, { w with back := w.back - 1 })
  else
    (none, w)

/-- The number of items not given out yet. -/
def size (w : Walk α) : Nat :=
  w.back - w.front

/-- The least and the greatest number of items that can still be given out. -/
def sizeHint (w : Walk α) : Nat × Option Nat :=
  (w.size, some w.size)

end Walk

end RewindLexer.Ring
