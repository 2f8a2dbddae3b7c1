import Mathlib.Order.Iterate
import RewindLexer.Proofs.Ring.Representation

/-!
# The capacity of a ring

A ring grows only to make room for an item when all its slots are taken, and to which capacity
depends on the one it has. So two numbers decide the capacity that a run of actions leaves: the
first capacity and the largest number of items on the way. What one action does is said as the first
growing capacity with room for the items it leaves, and such statements compose along a run.
-/

namespace RewindLexer.Ring

variable {α σ : Type} {r : Ring α}

/-! ## Growing capacities -/

/-- The capacity to which a full ring of capacity `c` grows. -/
def nextCapacity (c : Nat) : Nat :=
  16 + 3 * (c + 1) / 2

/-- The first of the capacities `c`, `nextCapacity c`, `nextCapacity (nextCapacity c)`, … with room
for `n` items is `c'`. -/
def FirstWithRoom (c n c' : Nat) : Prop :=
  ∃ k, c' = nextCapacity^[k] c ∧ n ≤ c' ∧ ∀ j < k, nextCapacity^[j] c < n

namespace FirstWithRoom

variable {c c' c'' n m : Nat}

theorem of_le (h : n ≤ c) : FirstWithRoom c n c :=
  ⟨0, rfl, h, nofun⟩

theorem next (c : Nat) : FirstWithRoom c (c + 1) (nextCapacity c) := by
  refine ⟨1, rfl, ?_, fun j hj => ?_⟩
  · rw [nextCapacity]
    omega
  · rw [Nat.lt_one_iff.1 hj]
    exact Nat.lt_succ_self c

theorem le (h : FirstWithRoom c n c') : c ≤ c' := by
  obtain ⟨k, rfl, -, -⟩ := h
  have hstep : id ≤ nextCapacity := by
    intro c
    simp only [id, nextCapacity]
    omega
  exact Function.id_le_iterate_of_id_le hstep k c

theorem trans (h : FirstWithRoom c n c') (h' : FirstWithRoom c' m c'') :
    FirstWithRoom c (max n m) c'' := by
  have hle := h'.le
  obtain ⟨k, rfl, hn, hbefore⟩ := h
  obtain ⟨l, rfl, hm, hbefore'⟩ := h'
  refine ⟨l + k, (Function.iterate_add_apply _ l k c).symm, by omega, fun j hj => ?_⟩
  -- a capacity passed over lies before `c'` or from `c'` on
  by_cases hjk : j < k
  · exact Nat.lt_of_lt_of_le (hbefore j hjk) (Nat.le_max_left n m)
  · obtain ⟨i, rfl⟩ := Nat.exists_eq_add_of_le' (Nat.not_lt.1 hjk)
    rw [Function.iterate_add_apply]
    exact Nat.lt_of_lt_of_le (hbefore' i (by omega)) (Nat.le_max_right n m)

theorem unique (h : FirstWithRoom c n c') (h' : FirstWithRoom c n c'') : c' = c'' := by
  obtain ⟨k, rfl, hn, hbefore⟩ := h
  obtain ⟨l, rfl, hn', hbefore'⟩ := h'
  rcases Nat.lt_trichotomy k l with hlt | rfl | hlt
  · exact absurd hn (Nat.not_le.2 (hbefore' k hlt))
  · rfl
  · exact absurd hn' (Nat.not_le.2 (hbefore l hlt))

end FirstWithRoom

/-! ## One action -/

theorem WellFormed.reserve_grows (h : r.WellFormed) :
    FirstWithRoom r.capacity (r.size + 1) r.reserve.capacity := by
  have hle := h.size_le
  rw [Ring.reserve]
  split
  · have hfull : r.size = r.capacity := by omega
    have hgrowth : growth (max (r.size + 1) r.capacity) = nextCapacity r.capacity := by
      rw [growth, nextCapacity, hfull, Nat.max_eq_left (Nat.le_succ _), Nat.mul_comm]
    rw [capacity_relaid, hgrowth, hfull]
    exact .next r.capacity
  · exact .of_le (by omega)

theorem WellFormed.append_grows (h : r.WellFormed) (values : List α) :
    FirstWithRoom r.capacity (r.append values).size (r.append values).capacity := by
  induction values generalizing r with
  | nil => exact .of_le h.size_le
  | cons a values ih =>
    have hpush : (r.pushBack a).WellFormed := (h.holds.pushBack a).wellFormed
    have hgrows := h.reserve_grows
    rw [← capacity_pushBack r a, ← size_pushBack r a] at hgrows
    have hsize : (r.pushBack a).size ≤ ((r.pushBack a).append values).size := by
      rw [size_append]
      exact Nat.le_add_right _ _
    have := hgrows.trans (ih hpush)
    rwa [Nat.max_eq_right hsize] at this

theorem WellFormed.capacity_copy (h : r.WellFormed) : r.copy.capacity = r.capacity := by
  have hgrows := (wellFormed_ofCapacity (α := α) r.capacity).append_grows r.toList
  have hsize : ((ofCapacity r.capacity).append r.toList).size = r.size :=
    h.holds.copy.size_eq.trans h.holds.size_eq.symm
  rw [capacity_ofCapacity, Nat.max_eq_left h.capacity_pos, hsize] at hgrows
  exact hgrows.unique (.of_le h.size_le)

theorem Cursor.capacity_move (c : Cursor α) (m : Cursor.Move α) :
    (c.move m).2.ring.capacity = c.ring.capacity := by
  cases m with
  | next => exact congrArg capacity (ring_next c)
  | modify f =>
    show (c.modifyCurrent f).2.ring.capacity = _
    cases h : c.current with
    | none => rw [modifyCurrent_of_none h]
    | some i => rw [ring_modifyCurrent h, modify, capacity_update]
  | remove => exact capacity_removeCurrent c

theorem Cursor.capacity_moves (c : Cursor α) (ms : List (Cursor.Move α)) :
    (c.moves ms).2.ring.capacity = c.ring.capacity := by
  induction ms generalizing c with
  | nil => rfl
  | cons m ms ih => exact (ih _).trans (capacity_move c m)

theorem WellFormed.grows_of_capacity_eq {r' : Ring α} (h : r'.WellFormed)
    (hc : r'.capacity = r.capacity) : FirstWithRoom r.capacity r'.size r'.capacity := by
  rw [← hc]
  exact .of_le h.size_le

/-- An action leaves the first capacity with room for the items that it leaves. -/
theorem WellFormed.act_grows [BEq α] (h : r.WellFormed) (action : Action α σ) :
    FirstWithRoom r.capacity (r.act action).2.size (r.act action).2.capacity := by
  -- only the four operations that add items may change the capacity
  have hkept := (h.act action).grows_of_capacity_eq (r := r)
  cases action with
  | pass ms => exact hkept (Cursor.capacity_moves r.cursor ms)
  | op op =>
    cases op with
    | pushFront a =>
      show FirstWithRoom _ (r.pushFront a).size (r.pushFront a).capacity
      rw [size_pushFront, capacity_pushFront]
      exact h.reserve_grows
    | pushBack a =>
      show FirstWithRoom _ (r.pushBack a).size (r.pushBack a).capacity
      rw [size_pushBack, capacity_pushBack]
      exact h.reserve_grows
    | insertAt i a =>
      by_cases hi : i ≤ r.toList.length
      · have hsize : (r.insertAt i a).2.size = r.size + 1 := by
          rw [(h.holds.insertAt_of_le hi a).2.size_eq, List.length_insertIdx_of_le_length hi,
            h.holds.size_eq]
        show FirstWithRoom _ (r.insertAt i a).2.size (r.insertAt i a).2.capacity
        rw [hsize, capacity_insertAt_of_le (h.holds.size_eq ▸ hi)]
        exact h.reserve_grows
      · have hfails := h.holds.insertAt_of_lt (Nat.not_le.1 hi) a
        exact hkept (congrArg (fun x => x.2.capacity) hfails)
    | append values => exact h.append_grows values
    | popFront => exact hkept (capacity_popFront r)
    | popBack => exact hkept (capacity_popBack r)
    | eraseAt i => exact hkept (capacity_eraseAt r i)
    | modify i f => exact hkept (capacity_update r i _)
    | set i a => exact hkept (capacity_update r i _)
    | clear => exact hkept (capacity_clear r)
    | copy => exact hkept h.capacity_copy
    | retain keep s => exact hkept (capacity_retain r keep s)
    | get | first | last | contains | indexOf | walk => exact hkept rfl

/-! ## Runs -/

/-- The largest number of items that a ring has on the way through a run of actions. Within one
action items are only added or only taken out, so no number in between exceeds the larger one of
those before and after it. -/
def peak [BEq α] (r : Ring α) : List (Action α σ) → Nat
  | [] => r.size
  | action :: actions => max r.size ((r.act action).2.peak actions)

theorem size_le_peak [BEq α] (r : Ring α) (actions : List (Action α σ)) :
    r.size ≤ r.peak actions := by
  cases actions with
  | nil => exact Nat.le_refl _
  | cons action actions => exact Nat.le_max_left _ _

theorem WellFormed.run_grows [BEq α] (h : r.WellFormed) (actions : List (Action α σ)) :
    FirstWithRoom r.capacity (r.peak actions)
      (actions.foldl (fun r action => (r.act action).2) r).capacity := by
  induction actions generalizing r with
  | nil => exact .of_le h.size_le
  | cons action actions ih =>
    have hrest := (h.act_grows action).trans (ih (h.act action))
    rw [Nat.max_eq_right (size_le_peak _ actions)] at hrest
    exact (FirstWithRoom.of_le h.size_le).trans hrest

/-- The capacity that a ring has before its first item comes. -/
def Start.capacity : Start α → Nat
  | .empty => 4
  | .ofCapacity n => max n 1
  | .ofList _ => 4

theorem Start.grows (start : Start α) :
    FirstWithRoom start.capacity start.ring.size start.ring.capacity := by
  cases start with
  | empty => exact .of_le (Nat.zero_le 4)
  | ofCapacity n =>
    show FirstWithRoom (max n 1) 0 (Ring.ofCapacity n : Ring α).capacity
    rw [capacity_ofCapacity]
    exact .of_le (Nat.zero_le _)
  | ofList values => exact holds_empty.wellFormed.append_grows values

theorem reached_append [BEq α] (start : Start α) (actions actions' : List (Action α σ)) :
    reached start (actions ++ actions') =
      actions'.foldl (fun r action => (r.act action).2) (reached start actions) :=
  List.foldl_append

/-- The capacity of every ring that can be reached is the first one, in the row of capacities that
starts with its own first one, that has room for the largest number of items on the way to it. So it
never gets smaller, and runs that agree in these two numbers end with one capacity, whatever is done
in them. An operation that fails leaves the capacity as it is, and a copy has the same one. -/
theorem reached_capacity [BEq α] (start : Start α) (actions : List (Action α σ)) :
    let r := reached start actions
    FirstWithRoom start.capacity (start.ring.peak actions) r.capacity ∧
      (∀ actions' : List (Action α σ), r.capacity ≤ (reached start (actions ++ actions')).capacity) ∧
      (∀ (start' : Start α) (actions' : List (Action α σ)), start'.capacity = start.capacity →
        start'.ring.peak actions' = start.ring.peak actions →
          (reached start' actions').capacity = r.capacity) ∧
      (∀ op : Op α σ, (r.perform op).1.IsError → (r.perform op).2.capacity = r.capacity) ∧
      r.copy.capacity = r.capacity := by
  intro r
  have hgrows : ∀ (start : Start α) (actions : List (Action α σ)), FirstWithRoom start.capacity
      (start.ring.peak actions) (reached start actions).capacity := by
    intro start actions
    have hrun := start.grows.trans (start.wellFormed.run_grows actions)
    rwa [Nat.max_eq_right (size_le_peak _ actions)] at hrun
  have hr : r.WellFormed := (start.wellFormed.run actions).1
  refine ⟨hgrows start actions, ?_, ?_, ?_, hr.capacity_copy⟩
  · intro actions'
    rw [reached_append]
    exact (hr.run_grows actions').le
  · intro start' actions' hstart hpeak
    have := hgrows start' actions'
    rw [hstart, hpeak] at this
    exact this.unique (hgrows start actions)
  · intro op he
    exact congrArg capacity (hr.holds.perform_of_isError he)

/-- Two runs that start from one slot and come to two items end with one capacity, although one of
them takes an item off again. -/
theorem reached_capacity_one_slot :
    let start : Start Nat := .ofCapacity 0
    let actions : List (Action Nat Unit) := [.op (.append [5, 6]), .op .popBack]
    let actions' : List (Action Nat Unit) := [.op (.pushFront 5), .op (.insertAt 1 6)]
    start.ring.peak actions' = start.ring.peak actions ∧
      (reached start actions').capacity = (reached start actions).capacity ∧
      (reached start actions).capacity = nextCapacity 1 := by
  intro start actions actions'
  have hpeak : start.ring.peak actions' = start.ring.peak actions := by decide
  obtain ⟨-, -, hsame, -⟩ := reached_capacity start actions
  exact ⟨hpeak, hsame start actions' rfl hpeak, by decide⟩

end RewindLexer.Ring
