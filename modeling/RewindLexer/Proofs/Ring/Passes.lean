import RewindLexer.Proofs.Ring.Shift
import RewindLexer.Ring.Cursor
import RewindLexer.Ring.Walk

/-!
# Passes over a ring

What walks give out and what filtering leaves, said on the list of items. A walk stands before a
stretch of the items and takes from its two ends; a filtering pass stands between the items it has
kept and those it has still to see.
-/

namespace RewindLexer.Ring

universe u v

variable {α : Type u} {σ : Type v} {r : Ring α} {xs ys : List α} {a : α}

/-! ## Walks -/

/-- One of the two ends of a sequence. -/
inductive End where
  | front
  | back
  deriving DecidableEq, Repr

/-- Takes one item from an end of a list. -/
def takeEnd (xs : List α) : End → Option α × List α
  | .front => (xs.head?, xs.tail)
  | .back => (xs.getLast?, xs.dropLast)

/-- Takes items from the ends of a list, one after the other. -/
def takeEnds (xs : List α) : List End → List (Option α)
  | [] => []
  | e :: es => (takeEnd xs e).1 :: takeEnds (takeEnd xs e).2 es

namespace Walk

/-- Gives out the item at an end. -/
def take (w : Walk α) : End → Option α × Walk α
  | .front => w.next
  | .back => w.nextBack

/-- Gives out items at the ends, one after the other. -/
def takes (w : Walk α) : List End → List (Option α)
  | [] => []
  | e :: es => (w.take e).1 :: (w.take e).2.takes es

/-- The items still to be given out are `ys`. -/
structure Spans (w : Walk α) (ys : List α) : Prop where
  holds : w.ring.Holds w.ring.toList
  le : w.front ≤ w.back
  back_le : w.back ≤ w.ring.toList.length
  eq : ys = (w.ring.toList.take w.back).drop w.front

theorem Spans.length_eq {w : Walk α} (h : w.Spans ys) : ys.length = w.size := by
  have := h.back_le
  simp only [h.eq, List.length_drop, List.length_take, size]
  omega

theorem Spans.getElem?_eq {w : Walk α} (h : w.Spans ys) {i : Nat} (hi : w.front + i < w.back) :
    ys[i]? = w.ring.toList[w.front + i]? := by
  rw [h.eq, List.getElem?_drop, List.getElem?_take, if_pos hi]

theorem Spans.next {w : Walk α} (h : w.Spans ys) :
    w.next.1 = ys.head? ∧ w.next.2.Spans ys.tail := by
  have hlen : ys.length = w.back - w.front := h.length_eq
  rw [Walk.next]
  split
  · rename_i hlt
    refine ⟨?_, h.holds, hlt, h.back_le, ?_⟩
    · show (w.ring.get w.front).toOption = ys.head?
      rw [h.holds.toOption_get, List.head?_eq_getElem?, h.getElem?_eq (by omega), Nat.add_zero]
    · rw [h.eq, List.tail_drop]
  · rename_i hge
    rw [List.eq_nil_of_length_eq_zero (l := ys) (by omega)] at h ⊢
    exact ⟨rfl, h⟩

theorem Spans.nextBack {w : Walk α} (h : w.Spans ys) :
    w.nextBack.1 = ys.getLast? ∧ w.nextBack.2.Spans ys.dropLast := by
  have hlen : ys.length = w.back - w.front := h.length_eq
  have hle := h.back_le
  rw [Walk.nextBack]
  split
  · rename_i hlt
    refine ⟨?_, h.holds, Nat.le_sub_one_of_lt hlt, Nat.le_trans (Nat.sub_le _ _) hle, ?_⟩
    · show (w.ring.get (w.back - 1)).toOption = ys.getLast?
      rw [h.holds.toOption_get, List.getLast?_eq_getElem?, h.getElem?_eq (by omega)]
      congr 1
      omega
    · show ys.dropLast = (w.ring.toList.take (w.back - 1)).drop w.front
      rw [List.dropLast_eq_take, hlen, h.eq, List.take_drop, List.take_take]
      congr 2
      omega
  · rename_i hge
    rw [List.eq_nil_of_length_eq_zero (l := ys) (by omega)] at h ⊢
    exact ⟨rfl, h⟩

theorem Spans.take {w : Walk α} (h : w.Spans ys) (e : End) :
    (w.take e).1 = (takeEnd ys e).1 ∧ (w.take e).2.Spans (takeEnd ys e).2 := by
  cases e with
  | front => exact h.next
  | back => exact h.nextBack

theorem Spans.takes_eq {w : Walk α} (h : w.Spans ys) (es : List End) :
    w.takes es = takeEnds ys es := by
  induction es generalizing w ys with
  | nil => rfl
  | cons e es ih =>
    obtain ⟨h₁, h₂⟩ := h.take e
    rw [takes, takeEnds, h₁, ih h₂]

end Walk

theorem Holds.spans_walk (h : r.Holds xs) : r.walk.Spans xs := by
  have hxs := h.toList_eq
  refine ⟨?_, Nat.zero_le _, ?_, ?_⟩
  · exact hxs.symm ▸ h
  · show r.size ≤ r.toList.length
    exact Nat.le_of_eq (by rw [hxs, h.size_eq])
  · show xs = (r.toList.take r.size).drop 0
    rw [hxs, h.size_eq, List.take_length, List.drop_zero]

/-! ## Filtering -/

/-- Filters a list by a test that carries a state of its own along. -/
def filterState (keep : σ → α → Bool × σ) (s : σ) : List α → σ × List α
  | [] => (s, [])
  | a :: xs =>
    match keep s a with
    | (true, s) => ((filterState keep s xs).1, a :: (filterState keep s xs).2)
    | (false, s) => filterState keep s xs

namespace Cursor

theorem ring_next (c : Cursor α) : c.next.2.ring = c.ring := by
  rw [next]
  split <;> rfl

theorem modifyCurrent_of_none {c : Cursor α} (h : c.current = none) (f : α → α) :
    c.modifyCurrent f = (none, c) := by
  rw [modifyCurrent, h]

theorem ring_modifyCurrent {c : Cursor α} {i : Nat} (h : c.current = some i) (f : α → α) :
    (c.modifyCurrent f).2.ring = (c.ring.modify i f).2 := by
  rw [modifyCurrent, h]

theorem removeCurrent_of_none {c : Cursor α} (h : c.current = none) :
    c.removeCurrent = (none, c) := by
  rw [removeCurrent, h]

theorem ring_removeCurrent {c : Cursor α} {i : Nat} (h : c.current = some i) :
    c.removeCurrent.2.ring = (c.ring.eraseAt i).2 := by
  simp only [removeCurrent, h]
  rcases c.ring.eraseAt i with ⟨_ | a, r⟩ <;> rfl

theorem capacity_removeCurrent (c : Cursor α) :
    c.removeCurrent.2.ring.capacity = c.ring.capacity := by
  cases h : c.current with
  | none => rw [removeCurrent_of_none h]
  | some i => rw [ring_removeCurrent h, capacity_eraseAt]

/-- The cursor stands between the items `done` and the items `ahead`. -/
structure Between (c : Cursor α) (done ahead : List α) : Prop where
  holds : c.ring.Holds (done ++ ahead)
  position_eq : c.position = done.length

theorem Between.next_cons {c : Cursor α} {done ahead : List α} (h : c.Between done (a :: ahead)) :
    c.next = (some a, ⟨c.ring, done.length + 1, some done.length⟩) := by
  have hget : c.ring.get done.length = .ok a := by
    rw [h.holds.get_of_lt (by simp)]
    simp
  rw [next, h.position_eq, if_pos (by rw [h.holds.size_eq]; simp), hget]
  rfl

theorem Between.next_nil {c : Cursor α} {done : List α} (h : c.Between done []) :
    c.next = (none, { c with current := none }) := by
  rw [next, h.position_eq, if_neg (by rw [h.holds.size_eq]; simp)]

/-- What a cursor gives out when it takes an item out of a ring, and how it goes on. -/
theorem removeCurrent_of_holds {done ahead : List α} (h : r.Holds (done ++ a :: ahead)) (n : Nat) :
    ∃ r', removeCurrent ⟨r, n, some done.length⟩ = (some a, ⟨r', done.length, none⟩) ∧
      r'.Holds (done ++ ahead) := by
  have he := h.eraseAt_of_lt (i := done.length) (by simp)
  rw [List.eraseIdx_append_of_length_le (Nat.le_refl _), Nat.sub_self,
    List.eraseIdx_cons_zero] at he
  rcases hq : r.eraseAt done.length with ⟨_ | b, r'⟩
  · rw [hq] at he
    cases he.1
  · rw [hq] at he
    obtain rfl : b = a := by simpa using he.1
    exact ⟨r', by simp only [removeCurrent, hq], he.2⟩

/-- The cursor after its next item has been given out, and removed unless it was to be kept. -/
def answered (c : Cursor α) (kept : Bool) : Cursor α :=
  if kept then c.next.2 else c.next.2.removeCurrent.2

/-- The test has a say in a step by its answer alone. -/
theorem filterStep_eq (c : Cursor α) (keep : σ → α → Bool × σ) (s : σ) :
    c.filterStep keep s = c.next.1.map fun a => ((keep s a).2, c.answered (keep s a).1) := by
  rw [filterStep]
  rcases hn : c.next with ⟨_ | a, c'⟩
  · rfl
  · rcases hk : keep s a with ⟨_ | _, s'⟩
    · simp [answered, hn, hk]
    · simp [answered, hn, hk]

theorem capacity_answered (c : Cursor α) (kept : Bool) :
    (c.answered kept).ring.capacity = c.ring.capacity := by
  cases kept with
  | false => exact (capacity_removeCurrent _).trans (congrArg capacity (ring_next c))
  | true => exact congrArg capacity (ring_next c)

theorem Between.answered {c : Cursor α} {done ahead : List α} (h : c.Between done (a :: ahead))
    (kept : Bool) :
    (c.answered kept).Between (if kept then done ++ [a] else done) ahead := by
  rw [Cursor.answered, h.next_cons]
  cases kept with
  | false =>
    obtain ⟨r', hr, hholds⟩ := removeCurrent_of_holds h.holds (done.length + 1)
    rw [if_neg Bool.false_ne_true, hr]
    exact ⟨hholds, rfl⟩
  | true => exact ⟨by simpa using h.holds, by simp⟩

theorem Between.filterRest_nil {c : Cursor α} {done : List α} (h : c.Between done [])
    (keep : σ → α → Bool × σ) (s : σ) : c.filterRest keep s = (s, c.ring) := by
  have hstep : c.filterStep keep s = none := by rw [filterStep_eq, h.next_nil]; rfl
  rw [filterRest]
  split
  · rfl
  · simp_all

theorem Between.filterRest_cons {c : Cursor α} {done ahead : List α}
    (h : c.Between done (a :: ahead)) (keep : σ → α → Bool × σ) (s : σ) :
    c.filterRest keep s = (c.answered (keep s a).1).filterRest keep (keep s a).2 := by
  have hstep : c.filterStep keep s = some ((keep s a).2, c.answered (keep s a).1) := by
    rw [filterStep_eq, h.next_cons]
    rfl
  rw [filterRest]
  split
  · simp_all
  · simp_all

theorem Between.filterRest_eq {c : Cursor α} {done ahead : List α} (h : c.Between done ahead)
    (keep : σ → α → Bool × σ) (s : σ) :
    (c.filterRest keep s).1 = (filterState keep s ahead).1 ∧
      (c.filterRest keep s).2.Holds (done ++ (filterState keep s ahead).2) := by
  induction ahead generalizing c done s with
  | nil =>
    rw [h.filterRest_nil]
    exact ⟨rfl, h.holds⟩
  | cons a ahead ih =>
    obtain ⟨h₁, h₂⟩ := ih (h.answered (keep s a).1) (keep s a).2
    rw [h.filterRest_cons, h₁, filterState]
    rcases hk : keep s a with ⟨_ | _, s'⟩
    · exact ⟨rfl, by simpa [hk] using h₂⟩
    · exact ⟨rfl, by simpa [hk] using h₂⟩

theorem capacity_filterRest (keep : σ → α → Bool × σ) (s : σ) (c : Cursor α) :
    (c.filterRest keep s).2.capacity = c.ring.capacity := by
  fun_induction c.filterRest keep s with
  | case1 s c _ => rfl
  | case2 s c s' c' hs ih =>
    rw [filterStep_eq] at hs
    obtain ⟨a, -, ha⟩ := Option.map_eq_some_iff.1 hs
    cases ha
    exact ih.trans (capacity_answered c _)

end Cursor

theorem Holds.retain (h : r.Holds xs) (keep : σ → α → Bool × σ) (s : σ) :
    (r.retain keep s).1 = (filterState keep s xs).1 ∧
      (r.retain keep s).2.Holds (filterState keep s xs).2 := by
  have hstart : r.cursor.Between [] xs := ⟨h, rfl⟩
  exact hstart.filterRest_eq keep s

theorem capacity_retain (r : Ring α) (keep : σ → α → Bool × σ) (s : σ) :
    (r.retain keep s).2.capacity = r.capacity :=
  Cursor.capacity_filterRest keep s r.cursor

end RewindLexer.Ring
