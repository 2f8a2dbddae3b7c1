/-!
# Sets of code points

A set of code points is a list of closed intervals in increasing order, so that a search may stop
at the first interval that starts above the code point looked for.
-/

namespace RewindLexer.Text

/-- Whether the intervals start at `n` or above, are not empty, and do not touch those before. -/
def increasingFrom : Nat → List (Nat × Nat) → Bool
  | _, [] => true
  | n, (lo, hi) :: rest => n ≤ lo && lo ≤ hi && increasingFrom (hi + 1) rest

/-- Closed intervals of code points, in increasing order. -/
structure Ranges where
  intervals : List (Nat × Nat)
  increasing : increasingFrom 0 intervals = true

namespace Ranges

/-- Whether a code point lies in one of the intervals, as far as the first that starts above it. -/
def search : List (Nat × Nat) → Nat → Bool
  | [], _ => false
  | (lo, hi) :: rest, n => if n < lo then false else if n ≤ hi then true else search rest n

/-- Whether a code point lies in one of the intervals. -/
def contains (rs : Ranges) (n : Nat) : Bool :=
  search rs.intervals n

theorem le_of_increasingFrom {n : Nat} {rs : List (Nat × Nat)} (h : increasingFrom n rs = true)
    {r : Nat × Nat} (hr : r ∈ rs) : n ≤ r.1 := by
  induction rs generalizing n with
  | nil => simp at hr
  | cons r' rest ih =>
    simp only [increasingFrom, Bool.and_eq_true, decide_eq_true_eq] at h
    rcases List.mem_cons.1 hr with rfl | hr
    · exact h.1.1
    · have := ih h.2 hr
      omega

theorem search_iff {n c : Nat} {rs : List (Nat × Nat)} (h : increasingFrom n rs = true) :
    search rs c = true ↔ ∃ r ∈ rs, r.1 ≤ c ∧ c ≤ r.2 := by
  induction rs generalizing n with
  | nil => simp [search]
  | cons r rest ih =>
    obtain ⟨lo, hi⟩ := r
    simp only [increasingFrom, Bool.and_eq_true, decide_eq_true_eq] at h
    simp only [search, List.mem_cons]
    split
    · refine ⟨by simp, ?_⟩
      rintro ⟨r, rfl | hr, h₁, h₂⟩
      · omega
      · have := le_of_increasingFrom h.2 hr
        omega
    · split
      · exact ⟨fun _ => ⟨(lo, hi), .inl rfl, by omega, by assumption⟩, fun _ => rfl⟩
      · rw [ih h.2]
        constructor
        · rintro ⟨r, hr, hc⟩
          exact ⟨r, .inr hr, hc⟩
        · rintro ⟨r, rfl | hr, hc⟩
          · exact absurd hc.2 (by assumption)
          · exact ⟨r, hr, hc⟩

/-- The search finds exactly the members. -/
theorem contains_iff {rs : Ranges} {c : Nat} :
    rs.contains c = true ↔ ∃ r ∈ rs.intervals, r.1 ≤ c ∧ c ≤ r.2 :=
  search_iff rs.increasing

end Ranges

end RewindLexer.Text
