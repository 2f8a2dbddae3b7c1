import RewindLexer.Ring.Basic
import RewindLexer.Source.Basic
import RewindLexer.Text.Quoted

/-!
# Looking ahead and handing back

A lookahead puts a ring of items in front of a source. Items that were looked at wait in the ring,
and items handed back go to its front; the source is asked only when the ring is empty or too short.
-/

namespace RewindLexer

universe u v

/-- A source with the items that have been read from it, or handed back, and not consumed yet. -/
structure Lookahead (σ : Type u) (α : Type v) where
  ring : Ring α := .empty
  source : σ

namespace Lookahead

variable {σ : Type u} {α : Type v} [Source σ α]

/-- The number of items that wait in front of the source. -/
def buffered (l : Lookahead σ α) : Nat :=
  l.ring.size

/-- Moves up to `n` items from the source to the end of the ring. Answers whether it got them all,
and stops at the first time that the source has nothing. -/
def pull (l : Lookahead σ α) : Nat → Bool × Lookahead σ α
  | 0 => (true, l)
  | n + 1 =>
    match Source.next l.source with
    | (some a, source) => pull ⟨l.ring.pushBack a, source⟩ n
    | (none, source) => (false, { l with source := source })

/-- Makes sure that at least `n` items wait, if the source has them. -/
def fill (l : Lookahead σ α) (n : Nat) : Bool × Lookahead σ α :=
  l.pull (n - l.ring.size)

/-- Whether there is a next item. -/
def hasNext (l : Lookahead σ α) : Bool × Lookahead σ α :=
  l.fill 1

/-- Consumes the next item. -/
def next (l : Lookahead σ α) : Option α × Lookahead σ α :=
  match l.ring.popFront with
  | (.ok a, ring) => (some a, { l with ring := ring })
  | (.error _, ring) =>
    let (answer, source) := Source.next l.source
    (answer, ⟨ring, source⟩)

/-- Consumes the next item, or answers `default` at the end. -/
def nextD (l : Lookahead σ α) (default : α) : α × Lookahead σ α :=
  let (answer, l) := l.next
  (answer.getD default, l)

/-- Consumes the next item, if any. -/
def skip (l : Lookahead σ α) : Lookahead σ α :=
  l.next.2

/-- Hands an item back: it is the next one to be consumed. -/
def unread (l : Lookahead σ α) (a : α) : Lookahead σ α :=
  { l with ring := l.ring.pushFront a }

/-- The item that comes after `n` others, looked for when at least `enough` items wait. -/
def lookAt (l : Lookahead σ α) (enough n : Nat) : Option α × Lookahead σ α :=
  match l.fill enough with
  | (true, l) => ((l.ring.get n).toOption, l)
  | (false, l) => (none, l)

/-- How many positions there are: each is a machine word. -/
def wordSize : Nat :=
  UInt64.size

/-- The item that comes after `n` others, for which one more than `n` items are to wait. The largest
word has none above it. A build that checks its arithmetic fails there; any other one wraps around,
as here, and looks without asking the source for anything. -/
def peekNth (l : Lookahead σ α) (n : Nat) : Option α × Lookahead σ α :=
  l.lookAt ((n + 1) % wordSize) n

/-- The item that comes after `n` others, or `default`. -/
def peekNthD (l : Lookahead σ α) (n : Nat) (default : α) : α × Lookahead σ α :=
  let (answer, l) := l.peekNth n
  (answer.getD default, l)

/-- The next item. -/
def peek (l : Lookahead σ α) : Option α × Lookahead σ α :=
  l.peekNth 0

/-- The next item, or `default`. -/
def peekD (l : Lookahead σ α) (default : α) : α × Lookahead σ α :=
  l.peekNthD 0 default

/-- Whether the next item equals a value. -/
def isNext [BEq α] (l : Lookahead σ α) (a : α) : Bool × Lookahead σ α :=
  let (answer, l) := l.peek
  (answer == some a, l)

/-- Whether the items after `n` others start with the given ones. Looks no further than the first
difference. No position in a text is the largest word. -/
def spellsFrom [BEq α] (l : Lookahead σ α) (n : Nat) : List α → Bool × Lookahead σ α
  | [] => (true, l)
  | a :: rest =>
    let (answer, l) := l.lookAt (n + 1) n
    if answer == some a then l.spellsFrom (n + 1) rest else (false, l)

/-- Whether the next items are the given ones. -/
def isNextList [BEq α] (l : Lookahead σ α) (items : List α) : Bool × Lookahead σ α :=
  l.spellsFrom 0 items

/-- The items that can still be consumed. -/
def view {σ : Type u} {α : Type v} [FiniteSource σ α] (l : Lookahead σ α) : List α :=
  l.ring.toList ++ FiniteSource.remaining l.source

/-! ## Counting what waits -/

/-- The number of items that can still be consumed. -/
def waiting {σ : Type u} {α : Type v} [FiniteSource σ α] (l : Lookahead σ α) : Nat :=
  l.ring.size + (FiniteSource.remaining l.source).length

section

variable {σ : Type u} {α : Type v} [FiniteSource σ α]

theorem waiting_pull (l : Lookahead σ α) (n : Nat) : (l.pull n).2.waiting = l.waiting := by
  fun_induction pull l n with
  | case1 => rfl
  | case2 l n a source h ih =>
    have hr := FiniteSource.remaining_of_some (s := l.source) (a := a) (by rw [h])
    rw [ih]
    simp only [waiting, Ring.size_pushBack, hr, h, List.length_cons]
    omega
  | case3 l n source h =>
    have hr := FiniteSource.remaining_of_none (s := l.source) (by rw [h])
    rw [h] at hr
    simp only [waiting, hr]

theorem waiting_fill (l : Lookahead σ α) (n : Nat) : (l.fill n).2.waiting = l.waiting :=
  l.waiting_pull _

theorem waiting_lookAt (l : Lookahead σ α) (enough n : Nat) :
    (l.lookAt enough n).2.waiting = l.waiting := by
  have h := l.waiting_fill enough
  unfold lookAt
  split <;> simp_all

theorem waiting_peekNth (l : Lookahead σ α) (n : Nat) : (l.peekNth n).2.waiting = l.waiting :=
  l.waiting_lookAt _ n

theorem waiting_spellsFrom [BEq α] (l : Lookahead σ α) (n : Nat) (items : List α) :
    (l.spellsFrom n items).2.waiting = l.waiting := by
  induction items generalizing l n with
  | nil => rfl
  | cons a rest ih =>
    simp only [spellsFrom]
    split
    · rw [ih, waiting_lookAt]
    · exact l.waiting_lookAt (n + 1) n

theorem waiting_next_lt {l l' : Lookahead σ α} {a : α} (h : l.next = (some a, l')) :
    l'.waiting < l.waiting := by
  unfold next at h
  split at h
  · rename_i b ring hp
    simp only [Prod.mk.injEq] at h
    obtain ⟨-, rfl⟩ := h
    have hs := l.ring.size_popFront
    have hpos := Ring.size_pos_of_popFront hp
    rw [hp] at hs
    simp only [waiting] at hs ⊢
    omega
  · rename_i e ring hp
    simp only [Prod.mk.injEq] at h
    obtain ⟨ha, rfl⟩ := h
    have hs := l.ring.size_popFront
    have hr := FiniteSource.remaining_of_some ha
    rw [hp] at hs
    simp only [waiting, hr, List.length_cons] at hs ⊢
    omega

theorem waiting_next_le (l : Lookahead σ α) : l.next.2.waiting ≤ l.waiting := by
  rcases h : l.next with ⟨_ | a, l'⟩
  · unfold next at h
    split at h
    · simp at h
    · rename_i e ring hp
      simp only [Prod.mk.injEq] at h
      obtain ⟨ha, rfl⟩ := h
      have hs := l.ring.size_popFront
      have hr := FiniteSource.remaining_of_none ha
      rw [hp] at hs
      simp only [waiting, hr] at hs ⊢
      omega
  · exact Nat.le_of_lt (waiting_next_lt h)

theorem waiting_unread (l : Lookahead σ α) (a : α) : (l.unread a).waiting = l.waiting + 1 := by
  simp only [waiting, unread, Ring.size_pushFront]
  omega

end

/-! ## Showing it -/

/-- The waiting characters, as shown to a reader of messages. -/
def describe (l : Lookahead σ Char) : String :=
  "PushbackBuffer \x7b lookahead: " ++ l.ring.describe Text.quotedChar ++ ", .. \x7d"

end Lookahead

end RewindLexer
