import RewindLexer.Lexer.Alphabet
import RewindLexer.Lexer.Trivia

/-!
# Runs of characters

A run is consumed one character too far, because only the next character shows where it ends; that
character is put back. A run of digits also sees the end of the input as such a character.
-/

namespace RewindLexer

open CharStream FiniteStream Text

universe u

variable {S : Type u} [FiniteStream S]

/-- Consumes characters as long as `p` holds of them and puts the one after them back. -/
def takeRun (p : Char → Bool) (s : S) : Except LexError Unit × S :=
  match _hn : hasNext s with
  | (false, s₁) => (.ok (), s₁)
  | (true, s₁) =>
    match _h : next s₁ with
    | (.error e, s₂) => (.error e, s₂)
    | (.ok c, s₂) => if p c then takeRun p s₂ else unread s₂ c
termination_by waiting s
decreasing_by exact waiting_lt_of_read _hn _h

theorem isDigit_zero : Numeral.isDigit '\x00' = false := by
  decide

/-- Consumes digits and the character, or the end of the input, after them. -/
def takeDigits (s : S) : S :=
  match _h : nextD s '\x00' with
  | (c, s') => if Numeral.isDigit c then takeDigits s' else s'
termination_by waiting s
decreasing_by
  refine waiting_nextD_lt _h fun hc => ?_
  simp_all [isDigit_zero]

theorem waiting_takeRun_le (p : Char → Bool) (s : S) : waiting (takeRun p s).2 ≤ waiting s := by
  fun_induction takeRun p s with
  | case1 s s₁ hn =>
    have hle := waiting_hasNext_le s
    rwa [hn] at hle
  | case2 s s₁ hn e s₂ h =>
    have hle := waiting_hasNext_le s
    have hle' := waiting_next_le s₁
    rw [hn] at hle
    rw [h] at hle'
    exact Nat.le_trans hle' hle
  | case3 s s₁ hn c s₂ h _ ih =>
    have := waiting_lt_of_read hn h
    omega
  | case4 s s₁ hn c s₂ h _ =>
    have := waiting_lt_of_read hn h
    have := waiting_unread_le s₂ c
    omega

/-! ## Runs while recording -/

theorem balanced_takeRun (p : Char → Bool) {s : S} (hr : (gauge s).recording = true) :
    Balanced s (takeRun p s).2 := by
  fun_induction takeRun p s with
  | case1 s s₁ hn =>
    have hb := balanced_hasNext hr
    rwa [hn] at hb
  | case2 s s₁ hn e s₂ h =>
    have hb := balanced_hasNext hr
    rw [hn] at hb
    have hb' := balanced_next hb.recording
    rw [h] at hb'
    exact hb.trans hb'
  | case3 s s₁ hn c s₂ h _ ih =>
    have hb := balanced_hasNext hr
    rw [hn] at hb
    have hb' := balanced_next hb.recording
    rw [h] at hb'
    exact (hb.trans hb').trans (ih hb'.recording)
  | case4 s s₁ hn c s₂ h _ =>
    have hb := balanced_hasNext hr
    rw [hn] at hb
    have hb' := balanced_next hb.recording
    rw [h] at hb'
    exact (hb.trans hb').trans (balanced_unread hb'.recording)

theorem balanced_takeDigits {s : S} (hr : (gauge s).recording = true) :
    Balanced s (takeDigits s) := by
  fun_induction takeDigits s with
  | case1 s c s' h _ ih =>
    have hb := balanced_nextD (c := '\x00') hr
    rw [h] at hb
    exact hb.trans (ih hb.recording)
  | case2 s c s' h _ =>
    have hb := balanced_nextD (c := '\x00') hr
    rwa [h] at hb

end RewindLexer
