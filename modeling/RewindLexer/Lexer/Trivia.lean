import RewindLexer.Lexer.Alphabet
import RewindLexer.Stream.Finite

/-!
# Blanks and comments

Between tokens there may be blanks and comments. A comment is `###` and the rest of its line, with
the character that ends the line.
-/

namespace RewindLexer

open CharStream FiniteStream Text

universe u

variable {S : Type u} [FiniteStream S]

/-- Whether a character ends a line, and with it a comment. -/
def endsLine (c : Char) : Bool :=
  c = '\n' || c = '\r'

/-- Consumes the rest of a line with its end. -/
def skipLine (s : S) : S :=
  match _h : next s with
  | (.error _, s') => s'
  | (.ok c, s') => if endsLine c then s' else skipLine s'
termination_by waiting s
decreasing_by exact waiting_next_lt ‹_›

/-- Consumes a comment whose first `#` has been consumed. -/
def skipComment (s : S) : S :=
  skipLine (skip (skip s))

/-- Whether a character that has been consumed opens a comment. -/
def opensComment (c : Char) (s : S) : Bool × S :=
  if c = '#' then isNextList s ['#', '#'] else (false, s)

theorem waiting_skipLine_le (s : S) : waiting (skipLine s) ≤ waiting s := by
  fun_induction skipLine s with
  | case1 s e s' h =>
    have hle := waiting_next_le s
    rwa [h] at hle
  | case2 s c s' h _ => exact Nat.le_of_lt (waiting_next_lt h)
  | case3 s c s' h _ ih => exact Nat.le_trans ih (Nat.le_of_lt (waiting_next_lt h))

theorem waiting_skipComment_le (s : S) : waiting (skipComment s) ≤ waiting s :=
  Nat.le_trans (waiting_skipLine_le _)
    (Nat.le_trans (waiting_skip_le _) (waiting_skip_le s))

theorem waiting_opensComment_le {c : Char} {s s' : S} {b : Bool}
    (h : opensComment c s = (b, s')) : waiting s' ≤ waiting s := by
  unfold opensComment at h
  split at h
  · have hle := waiting_isNextList_le s ['#', '#']
    rwa [h] at hle
  · simp only [Prod.mk.injEq] at h
    exact Nat.le_of_eq (congrArg waiting h.2.symm)

theorem waiting_lt_of_read {s s₁ s₂ : S} {b : Bool} {c : Char} (hn : hasNext s = (b, s₁))
    (h : next s₁ = (.ok c, s₂)) : waiting s₂ < waiting s := by
  have hle := waiting_hasNext_le s
  rw [hn] at hle
  exact Nat.lt_of_lt_of_le (waiting_next_lt h) hle

/-- Consumes blanks and comments and puts the first character of anything else back. -/
def skipTrivia (s : S) : Except LexError Unit × S :=
  match _hn : hasNext s with
  | (false, s₁) => (.ok (), s₁)
  | (true, s₁) =>
    match _h : next s₁ with
    | (.error e, s₂) => (.error e, s₂)
    | (.ok c, s₂) =>
      match _ho : opensComment c s₂ with
      | (true, s₃) => skipTrivia (skipComment s₃)
      | (false, s₃) => if isBlank c then skipTrivia s₃ else unread s₃ c
termination_by waiting s
decreasing_by
  · exact Nat.lt_of_le_of_lt
      (Nat.le_trans (waiting_skipComment_le s₃) (waiting_opensComment_le _ho))
      (waiting_lt_of_read _hn _h)
  · exact Nat.lt_of_le_of_lt (waiting_opensComment_le _ho) (waiting_lt_of_read _hn _h)

theorem waiting_skipTrivia_le (s : S) : waiting (skipTrivia s).2 ≤ waiting s := by
  fun_induction skipTrivia s with
  | case1 s s₁ hn =>
    have hle := waiting_hasNext_le s
    rwa [hn] at hle
  | case2 s s₁ hn e s₂ h =>
    have hle := waiting_hasNext_le s
    have hle' := waiting_next_le s₁
    rw [hn] at hle
    rw [h] at hle'
    exact Nat.le_trans hle' hle
  | case3 s s₁ hn c s₂ h s₃ ho ih =>
    have := waiting_lt_of_read hn h
    have := waiting_opensComment_le ho
    have := waiting_skipComment_le s₃
    omega
  | case4 s s₁ hn c s₂ h s₃ ho _ ih =>
    have := waiting_lt_of_read hn h
    have := waiting_opensComment_le ho
    omega
  | case5 s s₁ hn c s₂ h s₃ ho _ =>
    have := waiting_lt_of_read hn h
    have := waiting_opensComment_le ho
    have := waiting_unread_le s₃ c
    omega

end RewindLexer
