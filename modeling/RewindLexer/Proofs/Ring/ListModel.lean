import RewindLexer.Proofs.Ring.Passes

/-!
# Rings behave as lists

Every operation on a ring is also an operation on lists. A run of operations, from an empty ring of
any capacity, answers what the same run on the empty list answers and ends with the same items; an
operation that fails changes nothing; rings are equal if and only if their items are.
-/

namespace RewindLexer.Ring

universe u v

/-- An operation with its arguments. -/
inductive Op (α : Type u) (σ : Type v) where
  | pushFront (a : α)
  | pushBack (a : α)
  | popFront
  | popBack
  | insertAt (index : Nat) (a : α)
  | eraseAt (index : Nat)
  | get (index : Nat)
  | modify (index : Nat) (f : α → α)
  | set (index : Nat) (a : α)
  | first
  | last
  | clear
  | append (values : List α)
  | contains (a : α)
  | indexOf (a : α)
  /-- Goes on with a copy. -/
  | copy
  /-- Passes over the items, taking from either end. -/
  | walk (ends : List End)
  | retain (keep : σ → α → Bool × σ) (s : σ)

/-- What an operation answers. -/
inductive Answer (α : Type u) (σ : Type v) where
  | done
  | status (r : Except RingError Unit)
  | item (r : Except RingError α)
  | truth (b : Bool)
  | index (i : Option Nat)
  | items (given : List (Option α))
  | state (s : σ)

variable {α : Type u} {σ : Type v} {r : Ring α} {xs : List α}

/-- The operation has failed. -/
def Answer.IsError : Answer α σ → Prop
  | .status (.error _) | .item (.error _) => True
  | _ => False

/-! ## Operations on rings and on lists -/

/-- Carries an operation out on a ring. -/
def perform [BEq α] (r : Ring α) : Op α σ → Answer α σ × Ring α
  | .pushFront a => (.done, r.pushFront a)
  | .pushBack a => (.done, r.pushBack a)
  | .popFront => (.item r.popFront.1, r.popFront.2)
  | .popBack => (.item r.popBack.1, r.popBack.2)
  | .insertAt i a => (.status (r.insertAt i a).1, (r.insertAt i a).2)
  | .eraseAt i => (.item (r.eraseAt i).1, (r.eraseAt i).2)
  | .get i => (.item (r.get i), r)
  | .modify i f => (.item (r.modify i f).1, (r.modify i f).2)
  | .set i a => (.item (r.set i a).1, (r.set i a).2)
  | .first => (.item r.first, r)
  | .last => (.item r.last, r)
  | .clear => (.done, r.clear)
  | .append values => (.done, r.append values)
  | .contains a => (.truth (r.contains a), r)
  | .indexOf a => (.index (r.indexOf a), r)
  | .copy => (.done, r.copy)
  | .walk ends => (.items (r.walk.takes ends), r)
  | .retain keep s => (.state (r.retain keep s).1, (r.retain keep s).2)

/-- An item that must exist, as an answer. -/
def orElse (e : RingError) (x : Option α) : Answer α σ :=
  .item (match x with | some a => .ok a | none => .error e)

/-- Carries an operation out on a list. -/
def Op.onList [BEq α] (xs : List α) : Op α σ → Answer α σ × List α
  | .pushFront a => (.done, a :: xs)
  | .pushBack a => (.done, xs ++ [a])
  | .popFront => (orElse .empty xs.head?, xs.tail)
  | .popBack => (orElse .empty xs.getLast?, xs.dropLast)
  | .insertAt i a =>
    if i ≤ xs.length then (.status (.ok ()), xs.insertIdx i a)
    else (.status (.error (.outOfRange i xs.length)), xs)
  | .eraseAt i => (orElse (.outOfRange i xs.length) xs[i]?, xs.eraseIdx i)
  | .get i => (orElse (.outOfRange i xs.length) xs[i]?, xs)
  | .modify i f => (orElse (.outOfRange i xs.length) (xs[i]?.map f), xs.modify i f)
  | .set i a => (orElse (.outOfRange i xs.length) xs[i]?, xs.set i a)
  | .first => (orElse .empty xs.head?, xs)
  | .last => (orElse .empty xs.getLast?, xs)
  | .clear => (.done, [])
  | .append values => (.done, xs ++ values)
  | .contains a => (.truth (xs.any (· == a)), xs)
  | .indexOf a => (.index (xs.findIdx? (· == a)), xs)
  | .copy => (.done, xs)
  | .walk ends => (.items (takeEnds xs ends), xs)
  | .retain keep s => (.state (filterState keep s xs).1, (filterState keep s xs).2)

/-- Carries operations out on a ring, one after the other. -/
def performAll [BEq α] (r : Ring α) : List (Op α σ) → List (Answer α σ) × Ring α
  | [] => ([], r)
  | op :: ops =>
    ((r.perform op).1 :: ((r.perform op).2.performAll ops).1, ((r.perform op).2.performAll ops).2)

/-- Carries operations out on a list, one after the other. -/
def Op.allOnList [BEq α] (xs : List α) : List (Op α σ) → List (Answer α σ) × List α
  | [] => ([], xs)
  | op :: ops =>
    ((op.onList xs).1 :: (allOnList (op.onList xs).2 ops).1, (allOnList (op.onList xs).2 ops).2)

/-! ## One operation -/

theorem orElse_of_lt {i : Nat} (e : RingError) (hi : i < xs.length) :
    (orElse e xs[i]? : Answer α σ) = .item (.ok (xs.get ⟨i, hi⟩)) := by
  rw [List.getElem?_eq_getElem hi]
  rfl

theorem orElse_of_le {i : Nat} (e : RingError) (hi : xs.length ≤ i) :
    (orElse e xs[i]? : Answer α σ) = .item (.error e) := by
  rw [List.getElem?_eq_none hi]
  rfl

theorem Holds.first_eq (h : r.Holds xs) :
    (.item r.first : Answer α σ) = orElse .empty xs.head? := by
  rw [first, h.isEmpty_eq]
  cases xs with
  | nil => rfl
  | cons a xs =>
    rw [if_neg (by simp), h.get_of_lt (by simp)]
    rfl

theorem Holds.last_eq (h : r.Holds xs) :
    (.item r.last : Answer α σ) = orElse .empty xs.getLast? := by
  rw [last, h.isEmpty_eq, h.size_eq]
  cases xs with
  | nil => rfl
  | cons a xs =>
    rw [if_neg (by simp), h.get_of_lt (by simp), List.getLast?_eq_getElem?, orElse_of_lt]

theorem Holds.contains_eq [BEq α] (h : r.Holds xs) (a : α) : r.contains a = xs.any (· == a) := by
  rw [Ring.contains, indexOf, h.toList_eq, List.idxOf?, List.findIdx?_isSome]

/-- One operation on a ring answers and leaves what the operation on its items does. -/
theorem Holds.perform [BEq α] (h : r.Holds xs) (op : Op α σ) :
    (r.perform op).1 = (op.onList xs).1 ∧ (r.perform op).2.Holds (op.onList xs).2 := by
  cases op with
  | pushFront a => exact ⟨rfl, h.pushFront a⟩
  | pushBack a => exact ⟨rfl, h.pushBack a⟩
  | popFront =>
    cases xs with
    | nil =>
      simp only [Ring.perform, h.popFront_nil]
      exact ⟨rfl, h⟩
    | cons a xs =>
      obtain ⟨ha, hr⟩ := h.popFront_cons
      simp only [Ring.perform, ha]
      exact ⟨rfl, hr⟩
  | popBack =>
    rcases xs.eq_nil_or_concat' with rfl | ⟨xs, a, rfl⟩
    · simp only [Ring.perform, h.popBack_nil]
      exact ⟨rfl, h⟩
    · obtain ⟨ha, hr⟩ := h.popBack_concat
      simp only [Ring.perform, Op.onList, ha, List.getLast?_concat, List.dropLast_concat]
      exact ⟨rfl, hr⟩
  | insertAt i a =>
    simp only [Ring.perform, Op.onList]
    split
    · rename_i hi
      obtain ⟨ha, hr⟩ := h.insertAt_of_le hi a
      exact ⟨by rw [ha], hr⟩
    · rename_i hi
      rw [h.insertAt_of_lt (Nat.not_le.1 hi)]
      exact ⟨rfl, h⟩
  | eraseAt i =>
    simp only [Ring.perform, Op.onList]
    by_cases hi : i < xs.length
    · obtain ⟨ha, hr⟩ := h.eraseAt_of_lt hi
      exact ⟨by rw [ha, orElse_of_lt], hr⟩
    · rw [h.eraseAt_of_le (Nat.not_lt.1 hi), orElse_of_le _ (Nat.not_lt.1 hi),
        List.eraseIdx_of_length_le (Nat.not_lt.1 hi)]
      exact ⟨rfl, h⟩
  | get i =>
    simp only [Ring.perform, Op.onList]
    by_cases hi : i < xs.length
    · exact ⟨by rw [h.get_of_lt hi, orElse_of_lt], h⟩
    · exact ⟨by rw [h.get_of_le (Nat.not_lt.1 hi), orElse_of_le _ (Nat.not_lt.1 hi)], h⟩
  | modify i f =>
    simp only [Ring.perform, Op.onList, Ring.modify]
    by_cases hi : i < xs.length
    · obtain ⟨ha, hr⟩ := h.update_of_lt hi fun a => (f a, f a)
      rw [ha, List.getElem?_eq_getElem hi, List.modify_eq_set_getElem? ]
      exact ⟨rfl, by simpa [List.getElem?_eq_getElem hi] using hr⟩
    · rw [h.update_of_le (Nat.not_lt.1 hi), List.getElem?_eq_none (Nat.not_lt.1 hi),
        List.modify_eq_self (Nat.not_lt.1 hi)]
      exact ⟨rfl, h⟩
  | set i a =>
    simp only [Ring.perform, Op.onList, Ring.set]
    by_cases hi : i < xs.length
    · obtain ⟨ha, hr⟩ := h.update_of_lt hi fun b => (b, a)
      exact ⟨by rw [ha, orElse_of_lt], hr⟩
    · rw [h.update_of_le (Nat.not_lt.1 hi), orElse_of_le _ (Nat.not_lt.1 hi),
        List.set_eq_of_length_le (Nat.not_lt.1 hi)]
      exact ⟨rfl, h⟩
  | first => exact ⟨h.first_eq, h⟩
  | last => exact ⟨h.last_eq, h⟩
  | clear => exact ⟨rfl, h.clear⟩
  | append values => exact ⟨rfl, h.append values⟩
  | contains a => exact ⟨congrArg Answer.truth (h.contains_eq a), h⟩
  | indexOf a =>
    simp only [Ring.perform, Op.onList, indexOf, h.toList_eq]
    exact ⟨rfl, h⟩
  | copy => exact ⟨rfl, h.copy⟩
  | walk ends => exact ⟨congrArg Answer.items (h.spans_walk.takes_eq ends), h⟩
  | retain keep s =>
    obtain ⟨hs, hr⟩ := h.retain keep s
    exact ⟨congrArg Answer.state hs, hr⟩

/-- An operation that fails leaves the ring as it was, with its array and its counters. -/
theorem Holds.perform_of_isError [BEq α] (h : r.Holds xs) {op : Op α σ}
    (he : (r.perform op).1.IsError) : (r.perform op).2 = r := by
  cases op with
  | popFront =>
    cases xs with
    | nil => rw [Ring.perform, h.popFront_nil]
    | cons a xs =>
      rw [Ring.perform, h.popFront_cons.1] at he
      exact he.elim
  | popBack =>
    rcases xs.eq_nil_or_concat' with rfl | ⟨xs, a, rfl⟩
    · rw [Ring.perform, h.popBack_nil]
    · rw [Ring.perform, h.popBack_concat.1] at he
      exact he.elim
  | insertAt i a =>
    by_cases hi : i ≤ xs.length
    · rw [Ring.perform, (h.insertAt_of_le hi a).1] at he
      exact he.elim
    · rw [Ring.perform, h.insertAt_of_lt (Nat.not_le.1 hi)]
  | eraseAt i =>
    by_cases hi : i < xs.length
    · rw [Ring.perform, (h.eraseAt_of_lt hi).1] at he
      exact he.elim
    · rw [Ring.perform, h.eraseAt_of_le (Nat.not_lt.1 hi)]
  | modify i f =>
    by_cases hi : i < xs.length
    · rw [Ring.perform, Ring.modify, (h.update_of_lt hi _).1] at he
      exact he.elim
    · rw [Ring.perform, Ring.modify, h.update_of_le (Nat.not_lt.1 hi)]
  | set i a =>
    by_cases hi : i < xs.length
    · rw [Ring.perform, Ring.set, (h.update_of_lt hi _).1] at he
      exact he.elim
    · rw [Ring.perform, Ring.set, h.update_of_le (Nat.not_lt.1 hi)]
  | get | first | last | contains | indexOf | walk => rfl
  | pushFront | pushBack | clear | append | copy | retain => exact he.elim

/-- Equality sees the items alone, not where they stand. -/
theorem Holds.beq_eq [BEq α] {r' : Ring α} {ys : List α} (h : r.Holds xs) (h' : r'.Holds ys) :
    (r == r') = (xs == ys) := by
  have hdef : (r == r') = (r.size == r'.size && r.toList == r'.toList) := rfl
  rw [hdef, h.toList_eq, h'.toList_eq, h.size_eq, h'.size_eq]
  cases heq : xs == ys with
  | false => rw [Bool.and_false]
  | true => rw [List.length_eq_of_beq heq, beq_self_eq_true, Bool.and_true]

/-! ## Runs of operations -/

theorem Holds.performAll [BEq α] (h : r.Holds xs) (ops : List (Op α σ)) :
    (r.performAll ops).1 = (Op.allOnList xs ops).1 ∧
      (r.performAll ops).2.Holds (Op.allOnList xs ops).2 := by
  induction ops generalizing r xs with
  | nil => exact ⟨rfl, h⟩
  | cons op ops ih =>
    obtain ⟨ha, hr⟩ := h.perform op
    obtain ⟨has, hrs⟩ := ih hr
    refine ⟨?_, hrs⟩
    rw [Ring.performAll, Op.allOnList, ha, has]

/-- A ring is a list: every run of operations on a ring made with any capacity answers what the run
on the empty list answers and leaves its items. From the ring it leaves, an operation that fails
changes nothing; and two such rings are equal if and only if their lists are. -/
theorem performAll_eq_allOnList [BEq α] (n : Nat) (ops : List (Op α σ)) :
    ((ofCapacity n).performAll ops).1 = (Op.allOnList [] ops).1 ∧
      ((ofCapacity n).performAll ops).2.toList = (Op.allOnList [] ops).2 ∧
      (∀ op : Op α σ, (((ofCapacity n).performAll ops).2.perform op).1.IsError →
        (((ofCapacity n).performAll ops).2.perform op).2 = ((ofCapacity n).performAll ops).2) ∧
      ∀ (m : Nat) (ops' : List (Op α σ)),
        (((ofCapacity n).performAll ops).2 == ((ofCapacity m).performAll ops').2) =
          ((Op.allOnList [] ops).2 == (Op.allOnList [] ops').2) := by
  obtain ⟨ha, hr⟩ := (holds_ofCapacity n).performAll ops
  refine ⟨ha, hr.toList_eq, fun op he => hr.perform_of_isError he, fun m ops' => ?_⟩
  exact hr.beq_eq ((holds_ofCapacity m).performAll ops').2

end RewindLexer.Ring
