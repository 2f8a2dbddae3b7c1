import RewindLexer.Proofs.Ring.Passes

/-!
# Filtering in one pass

The test that filters a ring is called once on every item, from first to last, each time in the
state that the call before has left. A test can be made to write its calls down, which changes
nothing else about the pass; so what it is called on can be read off the state it ends with.
-/

namespace RewindLexer.Ring

universe u v

variable {α : Type u} {σ : Type v} {r : Ring α}

/-! ## The calls of a test -/

/-- The calls of a test over a list from left to right: the state it is in, and the item. -/
def calls (keep : σ → α → Bool × σ) (s : σ) : List α → List (σ × α)
  | [] => []
  | a :: xs => (s, a) :: calls keep (keep s a).2 xs

/-- A test that also writes its calls down. -/
def logged (keep : σ → α → Bool × σ) (s : List (σ × α) × σ) (a : α) :
    Bool × List (σ × α) × σ :=
  ((keep s.2 a).1, s.1 ++ [(s.2, a)], (keep s.2 a).2)

/-- The test has answered `true` in a call. -/
def accepted (keep : σ → α → Bool × σ) (call : σ × α) : Bool :=
  (keep call.1 call.2).1

theorem map_snd_calls (keep : σ → α → Bool × σ) (s : σ) (xs : List α) :
    (calls keep s xs).map Prod.snd = xs := by
  induction xs generalizing s with
  | nil => rfl
  | cons a xs ih => rw [calls, List.map_cons, ih]

theorem fst_filterState (keep : σ → α → Bool × σ) (s : σ) (xs : List α) :
    (filterState keep s xs).1 = xs.foldl (fun s a => (keep s a).2) s := by
  induction xs generalizing s with
  | nil => rfl
  | cons a xs ih =>
    rw [List.foldl_cons, ← ih, filterState]
    rcases keep s a with ⟨_ | _, s'⟩ <;> rfl

theorem snd_filterState (keep : σ → α → Bool × σ) (s : σ) (xs : List α) :
    (filterState keep s xs).2 = ((calls keep s xs).filter (accepted keep)).map Prod.snd := by
  induction xs generalizing s with
  | nil => rfl
  | cons a xs ih =>
    rw [calls, List.filter_cons, accepted, filterState]
    rcases hk : keep s a with ⟨_ | _, s'⟩
    · simpa using ih s'
    · simpa using ih s'

/-! ## The pass -/

namespace Cursor

/-- Writing the calls down changes nothing about a pass. -/
theorem Between.filterRest_logged {c : Cursor α} {done ahead : List α} (h : c.Between done ahead)
    (keep : σ → α → Bool × σ) (log : List (σ × α)) (s : σ) :
    c.filterRest (logged keep) (log, s) =
      ((log ++ calls keep s ahead, (c.filterRest keep s).1), (c.filterRest keep s).2) := by
  induction ahead generalizing c done log s with
  | nil => rw [h.filterRest_nil, h.filterRest_nil, calls, List.append_nil]
  | cons a ahead ih =>
    have hnext := h.answered (keep s a).1
    rw [h.filterRest_cons, h.filterRest_cons keep, logged, ih hnext, calls, List.append_assoc]
    rfl

/-- A pass that asks the cursor for `n` items at most, and is given up if the end has not been found
by then. -/
def filterWithin (keep : σ → α → Bool × σ) : Nat → σ → Cursor α → Option (σ × Ring α)
  | 0, _, _ => none
  | n + 1, s, c =>
    match c.filterStep keep s with
    | none => some (s, c.ring)
    | some (s', c') => filterWithin keep n s' c'

theorem Between.filterWithin_eq {c : Cursor α} {done ahead : List α} (h : c.Between done ahead)
    (keep : σ → α → Bool × σ) (n : Nat) (s : σ) :
    filterWithin keep n s c = if ahead.length < n then some (c.filterRest keep s) else none := by
  -- the induction is on the bound; each round uses up one item of `ahead`
  induction n generalizing c done ahead s with
  | zero => rfl
  | succ n ih =>
    rw [filterWithin, filterStep_eq]
    cases ahead with
    | nil =>
      rw [h.next_nil, h.filterRest_nil]
      exact (if_pos (Nat.succ_pos n)).symm
    | cons a ahead =>
      rw [h.next_cons, h.filterRest_cons]
      simpa using ih (h.answered (keep s a).1) (keep s a).2

end Cursor

/-- Filtering a ring by a test with a state of its own is one pass over its items. The test is
called once on each item, from first to last, and its state goes from call to call as it does over
the list of items; the items for which it has answered `true` are left, in their order, in a ring of
the same capacity. The pass comes to its end when the cursor has been asked for one item more than
there are, not earlier and not later. -/
theorem retain_in_one_pass (h : r.WellFormed) (keep : σ → α → Bool × σ) (s : σ) :
    let shown := calls keep s r.toList
    let left := r.retain keep s
    (r.retain (logged keep) ([], s) = ((shown, left.1), left.2) ∧ shown.map Prod.snd = r.toList) ∧
      left.1 = r.toList.foldl (fun s a => (keep s a).2) s ∧
      (left.2.WellFormed ∧ left.2.toList = (shown.filter (accepted keep)).map Prod.snd ∧
        left.2.capacity = r.capacity) ∧
      ∀ n, Cursor.filterWithin keep n s r.cursor =
        if r.toList.length < n then some left else none := by
  intro shown left
  have hstart : r.cursor.Between [] r.toList := ⟨h.holds, rfl⟩
  obtain ⟨hstate, hleft⟩ := h.holds.retain keep s
  refine ⟨⟨hstart.filterRest_logged keep [] s, map_snd_calls keep s r.toList⟩, ?_, ⟨?_, ?_, ?_⟩, ?_⟩
  · exact hstate.trans (fst_filterState keep s r.toList)
  · exact hleft.wellFormed
  · exact hleft.toList_eq.trans (snd_filterState keep s r.toList)
  · exact capacity_retain r keep s
  · exact fun n => hstart.filterWithin_eq keep n s

/-- A test that counts its calls keeps every other item, on both sides of the end of the array. -/
theorem retain_in_one_pass_straddling :
    straddling.WellFormed ∧
      (straddling.retain (fun n _ => (n % 2 == 0, n + 1)) 0).1 = 3 ∧
      (straddling.retain (fun n _ => (n % 2 == 0, n + 1)) 0).2.toList = [5, 7] := by
  obtain ⟨-, hstate, ⟨-, hleft, -⟩, -⟩ :=
    retain_in_one_pass wellFormed_straddling (fun n _ => (n % 2 == 0, n + 1)) 0
  exact ⟨wellFormed_straddling, hstate.trans (by decide), hleft.trans (by decide)⟩

end RewindLexer.Ring
