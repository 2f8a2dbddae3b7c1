import RewindLexer.Ring.Basic

/-!
# Cursors

A cursor passes over the items of a ring from first to last. The item it has just given out can be
changed in place or taken out. `Ring.retain` filters a ring by one pass of a cursor.
-/

namespace RewindLexer.Ring

universe u v

variable {α : Type u} {σ : Type v}

/-- A pass over a ring that may change and remove items. -/
structure Cursor (α : Type u) where
  ring : Ring α
  /-- The position given out next: the number of items passed and not removed. -/
  position : Nat
  /-- The position of the item given out last, unless it has been removed. -/
  current : Option Nat

/-- A cursor before the first item. -/
def cursor (r : Ring α) : Cursor α :=
  ⟨r, 0, none⟩

namespace Cursor

/-- Gives out the next item. -/
def next (c : Cursor α) : Option α × Cursor α :=
  if c.position < c.ring.size then
    ((c.ring.get c.position).toOption,
      { c with position := c.position + 1, current := some c.position })
  else
    (none, { c with current := none })

/-- Applies a function to the item given out last and answers the new item. -/
def modifyCurrent (c : Cursor α) (f : α → α) : Option α × Cursor α :=
  match c.current with
  | none => (none, c)
  | some i =>
    let (answer, ring) := c.ring.modify i f
    (answer.toOption, { c with ring := ring })

/-- Takes the item given out last out of the ring. -/
def removeCurrent (c : Cursor α) : Option α × Cursor α :=
  match c.current with
  | none => (none, c)
  | some i =>
    match c.ring.eraseAt i with
    | (.ok a, ring) => (some a, ⟨ring, i, none⟩)
    | (.error _, ring) => (none, ⟨ring, c.position, none⟩)

end Cursor

/-! ## Filtering -/

theorem size_eraseAt_lt {r : Ring α} {i : Nat} (h : i < r.size) :
    (r.eraseAt i).2.size < r.size := by
  unfold eraseAt
  rw [if_pos h]
  exact Nat.sub_lt (Nat.zero_lt_of_lt h) Nat.zero_lt_one

/-- One step of a filtering pass: the next item is shown to `keep`, whose own state moves on, and
is removed unless `keep` answers `true`. Ends with `none` after the last item. -/
def Cursor.filterStep (keep : σ → α → Bool × σ) (s : σ) (c : Cursor α) : Option (σ × Cursor α) :=
  match c.next with
  | (none, _) => none
  | (some a, c) =>
    match keep s a with
    | (true, s) => some (s, c)
    | (false, s) => some (s, c.removeCurrent.2)

/-- The items that a cursor has still to pass. -/
def Cursor.ahead (c : Cursor α) : Nat :=
  c.ring.size - c.position

theorem Cursor.ahead_filterStep_lt {keep : σ → α → Bool × σ} {s s' : σ} {c c' : Cursor α}
    (h : c.filterStep keep s = some (s', c')) : c'.ahead < c.ahead := by
  unfold filterStep next at h
  split at h
  · cases h
  · rename_i a c₁ hn
    split at hn
    · rename_i hlt
      simp only [Prod.mk.injEq] at hn
      obtain ⟨-, rfl⟩ := hn
      split at h
      · simp only [Option.some.injEq, Prod.mk.injEq] at h
        obtain ⟨-, rfl⟩ := h
        simp only [ahead]
        omega
      · simp only [Option.some.injEq, Prod.mk.injEq] at h
        obtain ⟨-, rfl⟩ := h
        have hsize := size_eraseAt_lt hlt
        unfold removeCurrent
        simp only [ahead]
        split
        · rename_i he
          rw [he] at hsize
          simp only at hsize ⊢
          omega
        · rename_i he
          rw [he] at hsize
          simp only at hsize ⊢
          omega
    · simp at hn

/-- Passes a cursor over the rest of its ring and removes what `keep` refuses. -/
def Cursor.filterRest (keep : σ → α → Bool × σ) (s : σ) (c : Cursor α) : σ × Ring α :=
  match _h : c.filterStep keep s with
  | none => (s, c.ring)
  | some (s', c') => filterRest keep s' c'
termination_by c.ahead
decreasing_by exact ahead_filterStep_lt ‹_›

/-- Removes the items that `keep` refuses. It sees every item once, from first to last, and carries
a state of its own along. -/
def retain (r : Ring α) (keep : σ → α → Bool × σ) (s : σ) : σ × Ring α :=
  r.cursor.filterRest keep s

end RewindLexer.Ring
