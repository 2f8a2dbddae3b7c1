/-!
# Sources

A source hands out one item at a time. It may answer that there is nothing now and have more later.
A finite source knows which items it will still hand out. The sources here are lists, scripts of
answers, and a wrapper that counts how often it is asked.
-/

namespace RewindLexer

universe u v

/-- Anything that hands out items one at a time. -/
class Source (σ : Type u) (α : outParam (Type v)) where
  /-- Asks for the next item. -/
  next : σ → Option α × σ

/-- A source that hands out finitely many items, however often it is asked. -/
class FiniteSource (σ : Type u) (α : outParam (Type v)) extends Source σ α where
  /-- The items still to be handed out, in order. -/
  remaining : σ → List α
  /-- Asking takes the item handed out, if any, off the remaining ones. -/
  remaining_eq (s : σ) : remaining s = (next s).1.toList ++ remaining (next s).2

/-- A finite source that has nothing left once it has answered that there is nothing. -/
class FusedSource (σ : Type u) (α : outParam (Type v)) extends FiniteSource σ α where
  /-- Only a source with nothing left answers that there is nothing. -/
  remaining_of_next (s : σ) : (next s).1 = none → remaining s = []

namespace FiniteSource

variable {σ : Type u} {α : Type v} [FiniteSource σ α]

theorem remaining_of_some {s : σ} {a : α} (h : (Source.next s).1 = some a) :
    remaining s = a :: remaining (Source.next s).2 := by
  rw [remaining_eq s, h]
  rfl

theorem remaining_of_none {s : σ} (h : (Source.next s).1 = none) :
    remaining (Source.next s).2 = remaining s := by
  rw [remaining_eq s, h]
  rfl

/-- Asks until there is nothing and answers the items handed out. -/
def drain (s : σ) : List α × σ :=
  match _h : Source.next s with
  | (none, s') => ([], s')
  | (some a, s') =>
    let (rest, s'') := drain s'
    (a :: rest, s'')
termination_by (remaining s).length
decreasing_by
  have h := remaining_of_some (s := s) (a := a) (by rw [_h])
  rw [_h] at h
  simp [h]

end FiniteSource

/-! ## Lists -/

/-- A list hands out its items in order. -/
instance {α : Type u} : FusedSource (List α) α where
  next
    | [] => (none, [])
    | a :: rest => (some a, rest)
  remaining := id
  remaining_eq
    | [] => rfl
    | _ :: _ => rfl
  remaining_of_next
    | [], _ => rfl

/-! ## Scripts -/

/-- A source that gives the answers of a list in turn, then nothing for ever. -/
structure Script (α : Type u) where
  answers : List (Option α)

namespace Script

variable {α : Type u}

/-- Gives the next answer. -/
def next : Script α → Option α × Script α
  | ⟨[]⟩ => (none, ⟨[]⟩)
  | ⟨a :: rest⟩ => (a, ⟨rest⟩)

/-- The items among the answers. -/
def items (s : Script α) : List α :=
  s.answers.filterMap id

instance : FiniteSource (Script α) α where
  next := next
  remaining := items
  remaining_eq
    | ⟨[]⟩ => rfl
    | ⟨none :: _⟩ => rfl
    | ⟨some _ :: _⟩ => rfl

end Script

/-! ## Counting -/

/-- A source together with the number of times it has been asked. -/
structure Counted (σ : Type u) where
  source : σ
  pulls : Nat := 0

namespace Counted

variable {σ : Type u} {α : Type v}

/-- Asks the source and counts. -/
def next [Source σ α] (s : Counted σ) : Option α × Counted σ :=
  let (answer, source) := Source.next s.source
  (answer, ⟨source, s.pulls + 1⟩)

instance [Source σ α] : Source (Counted σ) α where
  next := next

instance [FiniteSource σ α] : FiniteSource (Counted σ) α where
  remaining s := FiniteSource.remaining s.source
  remaining_eq s := FiniteSource.remaining_eq s.source

instance [FusedSource σ α] : FusedSource (Counted σ) α where
  remaining_of_next s h := FusedSource.remaining_of_next s.source h

end Counted

end RewindLexer
