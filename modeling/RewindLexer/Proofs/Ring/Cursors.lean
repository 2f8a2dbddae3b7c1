import Mathlib.Data.List.ReduceOption
import RewindLexer.Proofs.Ring.Representation

/-!
# Passes of a cursor

A cursor divides the items of its ring into those it has passed, the one it holds, and those ahead.
The item it holds is the one given out last, and it can be changed or taken out until the next one
is asked for. One lemma says what each step does to the three parts, whatever the layout of the
ring; a pass of any length is an induction over its steps.
-/

namespace RewindLexer.Ring

variable {α : Type} {r : Ring α}

namespace Cursor

/-! ## What a pass does to the items -/

/-- For each time the next item is asked for, the steps that follow. -/
def followers : List (Move α) → List (List (Move α))
  | [] => []
  | .next :: ms => ms :: followers ms
  | .modify _ :: ms => followers ms
  | .remove :: ms => followers ms

/-- What the steps that follow make of an item given out. It is changed until it is taken out or the
next one is asked for, and it is `none` once it has been taken out. -/
def fate (a : α) : List (Move α) → Option α
  | [] => some a
  | .next :: _ => some a
  | .modify f :: ms => fate (f a) ms
  | .remove :: _ => none

/-- The items given out and not taken out, with their changes. -/
def passed (xs : List α) (ms : List (Move α)) : List α :=
  (List.zipWith fate xs (followers ms)).reduceOption

/-- The item given out last, with its changes, unless it has been taken out since or there was none
to give out. Before the first step it is `held`. -/
def inHand (held : Option α) (xs : List α) : List (Move α) → Option α
  | [] => held
  | .next :: ms => inHand xs.head? xs.tail ms
  | .modify f :: ms => inHand (held.map f) xs ms
  | .remove :: ms => inHand none xs ms

/-- The answers to asking for the next item, one after the other. -/
def given (c : Cursor α) (ms : List (Move α)) : List (Option α) :=
  (ms.zip (c.moves ms).1).filterMap fun
    | (.next, answer) => some answer
    | _ => none

theorem passed_next (xs : List α) (ms : List (Move α)) :
    passed xs (.next :: ms) = (xs.head?.bind (fate · ms)).toList ++ passed xs.tail ms := by
  cases xs with
  | nil => simp [passed]
  | cons a xs => cases h : fate a ms <;> simp [passed, followers, h]

/-! ## Steps -/

variable {c : Cursor α} {done ahead : List α} {held : Option α}

/-- The cursor has passed `done`, holds `held` and stands before `ahead`. -/
structure Stands (c : Cursor α) (done : List α) (held : Option α) (ahead : List α) : Prop where
  between : c.Between (done ++ held.toList) ahead
  current_eq : c.current = held.map fun _ => done.length

theorem stands_cursor (h : r.WellFormed) : r.cursor.Stands [] none r.toList :=
  ⟨⟨h.holds, rfl⟩, rfl⟩

theorem Stands.next (h : c.Stands done held ahead) :
    c.next.1 = ahead.head? ∧ c.next.2.Stands (done ++ held.toList) ahead.head? ahead.tail := by
  cases ahead with
  | nil =>
    rw [h.between.next_nil]
    refine ⟨rfl, ⟨?_, ?_⟩, rfl⟩
    · simpa using h.between.holds
    · simpa using h.between.position_eq
  | cons a ahead =>
    rw [h.between.next_cons]
    refine ⟨rfl, ⟨?_, ?_⟩, rfl⟩
    · simpa using h.between.holds
    · simp [Nat.add_assoc]

theorem Stands.modifyCurrent (h : c.Stands done held ahead) (f : α → α) :
    (c.modifyCurrent f).1 = held.map f ∧
      (c.modifyCurrent f).2.Stands done (held.map f) ahead := by
  cases held with
  | none =>
    rw [modifyCurrent_of_none h.current_eq]
    exact ⟨rfl, h⟩
  | some a =>
    have hholds : c.ring.Holds (done ++ a :: ahead) := by simpa using h.between.holds
    obtain ⟨hanswer, hring⟩ :=
      hholds.update_of_lt (i := done.length) (by simp) fun a => (f a, f a)
    simp only [Cursor.modifyCurrent, h.current_eq, Option.map_some, modify, hanswer]
    refine ⟨by simp [Except.toOption], ⟨?_, ?_⟩, rfl⟩
    · simpa using hring
    · simpa using h.between.position_eq

theorem Stands.removeCurrent (h : c.Stands done held ahead) :
    c.removeCurrent.1 = held ∧ c.removeCurrent.2.Stands done none ahead := by
  cases held with
  | none =>
    rw [removeCurrent_of_none h.current_eq]
    exact ⟨rfl, h⟩
  | some a =>
    obtain ⟨ring, position, current⟩ := c
    obtain rfl : current = some done.length := h.current_eq
    have hholds : ring.Holds (done ++ a :: ahead) := by simpa using h.between.holds
    obtain ⟨ring', hremove, hleft⟩ := removeCurrent_of_holds hholds position
    rw [hremove]
    exact ⟨rfl, ⟨by simpa using hleft, by simp⟩, rfl⟩

/-! ## Passes -/

/-- A pass gives out the items ahead one by one. What it leaves behind is what was behind before,
the item held as the steps before the first item have left it, and the items passed. -/
theorem Stands.moves (h : c.Stands done held ahead) (ms : List (Move α)) :
    c.given ms = (List.range (followers ms).length).map (ahead[·]?) ∧
      ∃ done', (c.moves ms).2.Stands done' (inHand held ahead ms)
          (ahead.drop (followers ms).length) ∧
        done' ++ (inHand held ahead ms).toList =
          done ++ (held.bind (fate · ms)).toList ++ passed ahead ms := by
  -- the induction is on the steps, from wherever the cursor stands
  induction ms generalizing c done held ahead with
  | nil => exact ⟨rfl, done, h, by simp [inHand, passed, followers, fate]⟩
  | cons m ms ih =>
    cases m with
    | next =>
      obtain ⟨hanswer, hnext⟩ := h.next
      obtain ⟨hgiven, done', hstands, hdone⟩ := ih hnext
      refine ⟨?_, done', ?_, ?_⟩
      · have hcons : c.given (.next :: ms) = c.next.1 :: c.next.2.given ms := rfl
        rw [hcons, hanswer, hgiven, followers, List.length_cons, List.range_succ_eq_map]
        simp [List.head?_eq_getElem?, Function.comp_def]
      · rw [followers, List.length_cons, ← List.drop_tail]
        exact hstands
      · have hheld : (held.bind (fate · (.next :: ms))) = held := by cases held <;> rfl
        rw [inHand, hdone, passed_next, hheld, List.append_assoc]
    | modify f =>
      obtain ⟨-, hnext⟩ := h.modifyCurrent f
      obtain ⟨hgiven, done', hstands, hdone⟩ := ih hnext
      refine ⟨hgiven, done', hstands, ?_⟩
      rw [inHand, hdone]
      cases held <;> rfl
    | remove =>
      obtain ⟨-, hnext⟩ := h.removeCurrent
      obtain ⟨hgiven, done', hstands, hdone⟩ := ih hnext
      refine ⟨hgiven, done', hstands, ?_⟩
      rw [inHand, hdone]
      cases held <;> rfl

end Cursor

open Cursor in
/-- A pass of a cursor over any ring, after any steps; asking where the cursor stands changes nothing
and is not counted as one. It has given out the items of the ring in order, each one once, and
nothing after the last one. The ring holds the items passed and not taken out, with their changes
and in order, and behind them the items not yet given out; the position is the number of the former.
Taking an item out answers with the one given out last, unless it has been taken out since or there
was none, and then changes nothing. -/
theorem cursor_passes_items (h : r.WellFormed) (ms : List (Move α)) :
    let c := (r.cursor.moves ms).2
    let asked := (followers ms).length
    r.cursor.given ms = (List.range asked).map (r.toList[·]?) ∧
      (c.ring.WellFormed ∧ c.ring.toList = passed r.toList ms ++ r.toList.drop asked) ∧
      c.position = (passed r.toList ms).length ∧
      c.removeCurrent.1 = inHand none r.toList ms ∧
      (inHand none r.toList ms = none → c.removeCurrent.2 = c) := by
  intro c asked
  obtain ⟨hgiven, done, hstands, hdone⟩ := (stands_cursor h).moves ms
  have hpassed : done ++ (inHand none r.toList ms).toList = passed r.toList ms := hdone
  have hholds := hstands.between.holds
  have hposition := hstands.between.position_eq
  rw [hpassed] at hholds hposition
  refine ⟨hgiven, ⟨hholds.wellFormed, hholds.toList_eq⟩, hposition, hstands.removeCurrent.1, ?_⟩
  intro hnone
  rw [hnone] at hstands
  rw [removeCurrent_of_none hstands.current_eq]

/-- The first item is taken out, the second one changed, and the third one, which stands in the first
slot, only passed; then the end is found and there is nothing to take out. -/
theorem cursor_passes_items_straddling :
    straddling.WellFormed ∧
      (straddling.cursor.moves
          [.next, .remove, .remove, .next, .modify (· * 2), .next, .next]).2.ring.toList = [12, 7] ∧
      (straddling.cursor.moves
          [.next, .remove, .remove, .next, .modify (· * 2), .next, .next]).2.removeCurrent.1 =
        none := by
  obtain ⟨-, ⟨-, hitems⟩, -, hremove, -⟩ := cursor_passes_items wellFormed_straddling
    [.next, .remove, .remove, .next, .modify (· * 2), .next, .next]
  exact ⟨wellFormed_straddling, hitems.trans (by decide), hremove.trans (by decide)⟩

end RewindLexer.Ring
