import RewindLexer.Proofs.Ring.Passes

/-!
# Walks from both ends

What a walk gives out at its two ends, however the calls at one end and at the other follow each
other. The items given out in front, those that are left, and those given out at the back, last one
first, make up the items of the ring; a call takes one item off the middle of the three.
-/

namespace RewindLexer.Ring

universe u

variable {α : Type u} {r : Ring α} {ys : List α}

namespace Walk

/-- The walk after calls at its ends, one after the other. -/
def after (w : Walk α) : List End → Walk α
  | [] => w
  | e :: es => (w.take e).2.after es

/-- The items that the calls at the end `e` have given out, in the order of the calls. -/
def given (w : Walk α) (es : List End) (e : End) : List α :=
  ((es.zip (w.takes es)).filter (·.1 == e)).filterMap (·.2)

theorem given_cons (w : Walk α) (e' : End) (es : List End) (e : End) :
    w.given (e' :: es) e =
      (if e' = e then (w.take e').1.toList else []) ++ (w.take e').2.given es e := by
  simp only [given, takes, List.zip_cons_cons, List.filter_cons, beq_iff_eq]
  split
  · cases (w.take e').1 <;> rfl
  · rfl

/-- Calls move items from the middle to the two sides, and lose none. -/
theorem Spans.after {w : Walk α} (h : w.Spans ys) (es : List End) :
    ∃ zs, (w.after es).Spans zs ∧ ys = w.given es .front ++ zs ++ (w.given es .back).reverse := by
  -- the induction is on the calls; what is left shrinks from both sides
  induction es generalizing w ys with
  | nil => exact ⟨ys, h, by simp [given, takes]⟩
  | cons e es ih =>
    obtain ⟨hgiven, hrest⟩ := h.take e
    obtain ⟨zs, hzs, hsplit⟩ := ih hrest
    refine ⟨zs, hzs, ?_⟩
    cases e with
    | front =>
      calc ys = ys.head?.toList ++ ys.tail := by cases ys <;> rfl
        _ = ys.head?.toList ++ _ := congrArg (ys.head?.toList ++ ·) hsplit
        _ = _ := by simp [given_cons, hgiven, takeEnd]
    | back =>
      calc ys = ys.dropLast ++ ys.getLast?.toList.reverse := by
            rcases ys.eq_nil_or_concat' with rfl | ⟨ys, a, rfl⟩ <;> simp
        _ = _ ++ ys.getLast?.toList.reverse := congrArg (· ++ ys.getLast?.toList.reverse) hsplit
        _ = _ := by simp [given_cons, hgiven, takeEnd]

theorem Spans.take_eq_none_iff {w : Walk α} (h : w.Spans ys) (e : End) :
    (w.take e).1 = none ↔ ys = [] := by
  rw [(h.take e).1]
  cases e with
  | front => exact List.head?_eq_none_iff
  | back => exact List.getLast?_eq_none_iff

/-- A walk with no items left gives out nothing any more. -/
theorem Spans.takes_nil {w : Walk α} (h : w.Spans []) (es : List End) :
    w.takes es = List.replicate es.length none := by
  rw [h.takes_eq]
  induction es with
  | nil => rfl
  | cons e es ih => cases e <;> exact congrArg (none :: ·) ih

end Walk

/-- A walk over any ring, after calls at its two ends in any order. In front it has given out the
first items of the ring, from the first one on, and at the back the last ones, from the last one on,
and never more than there are. The next call at either end gives out nothing if and only if all
items have been given out, and from then on no call does. The number of items left is the difference
of two numbers of which the first is not the smaller one, and what is told about it is exact. -/
theorem walk_from_both_ends (h : r.WellFormed) (es : List End) :
    let w := r.walk.after es
    let front := r.walk.given es .front
    let back := r.walk.given es .back
    let left := r.toList.length - front.length - back.length
    (front = r.toList.take front.length ∧ back = r.toList.reverse.take back.length ∧
        front.length + back.length ≤ r.toList.length) ∧
      ((w.next.1 = none ↔ front.length + back.length = r.toList.length) ∧
        (w.nextBack.1 = none ↔ front.length + back.length = r.toList.length) ∧
        (front.length + back.length = r.toList.length →
          ∀ es', w.takes es' = List.replicate es'.length none)) ∧
      (w.front ≤ w.back ∧ w.size = left ∧ w.sizeHint = (left, some left)) := by
  intro w front back left
  obtain ⟨zs, hzs, hsplit⟩ := h.holds.spans_walk.after es
  have hlen : r.toList.length = front.length + zs.length + back.length := by
    conv_lhs => rw [hsplit]
    simp [front, back, Nat.add_assoc]
  have hend : front.length + back.length = r.toList.length ↔ zs = [] := by
    rw [← List.length_eq_zero_iff]
    omega
  have hleft : w.size = left := by
    rw [← hzs.length_eq]
    omega
  refine ⟨⟨?_, ?_, by omega⟩, ⟨?_, ?_, ?_⟩, hzs.le, hleft, ?_⟩
  · rw [hsplit, List.append_assoc]
    exact (List.take_left' rfl).symm
  · rw [hsplit, List.reverse_append, List.reverse_reverse]
    exact (List.take_left' rfl).symm
  · rw [hend]
    exact hzs.take_eq_none_iff .front
  · rw [hend]
    exact hzs.take_eq_none_iff .back
  · intro hall es'
    rw [hend] at hall
    exact (hall ▸ hzs).takes_nil es'
  · rw [Walk.sizeHint, hleft]

/-- Two calls at the back and one in front exhaust a walk over three items on both sides of the end
of the array. -/
theorem walk_from_both_ends_straddling :
    straddling.WellFormed ∧
      straddling.walk.given [.back, .front, .back] .front = [5] ∧
      straddling.walk.given [.back, .front, .back] .back = [7, 6] ∧
      ∀ es', (straddling.walk.after [.back, .front, .back]).takes es' =
        List.replicate es'.length none :=
  ⟨wellFormed_straddling, by decide, by decide,
    (walk_from_both_ends wellFormed_straddling [.back, .front, .back]).2.1.2.2 (by decide)⟩

end RewindLexer.Ring
