import RewindLexer.Lexer.Entity
import RewindLexer.Lexer.Scan
import RewindLexer.Stream.Finite

/-!
# The inside of strings

Inside a string a backslash opens an escape. Most escaped characters stand for themselves and some
letters for control characters; `&` opens an entity, which runs to a `;`. A backslash right after
that `&` opens an escape anew.
-/

namespace RewindLexer

open CharStream FiniteStream

universe u

variable {S : Type u} [FiniteStream S]

/-- The character that an escaped character stands for. -/
def unescape (c : Char) : Char :=
  match c with
  | 'n' => '\n'
  | 'r' => '\r'
  | 't' => '\t'
  | 'f' => '\x0c'
  | 'b' => '\x08'
  | c => c

/-- Consumes an entity through its `;` and answers what is before it, after what has been read
already, the last character first. Fails as soon as there are more than `limit` characters. -/
def entityBody (limit : Nat) (body : List Char) (s : S) : Except LexError (List Char) × S :=
  match _h : next s with
  | (.error e, s') => (.error e, s')
  | (.ok c, s') =>
    if c = ';' then
      (.ok body.reverse, s')
    else if limit < (c :: body).length then
      (.error (.malformedEscape (String.ofList (c :: body).reverse)), s')
    else
      entityBody limit (c :: body) s'
termination_by waiting s
decreasing_by exact waiting_next_lt ‹_›

/-- Consumes an entity whose `&` has been consumed. -/
def readEntity (limit : Nat) : Scan S Char := do
  let body ← (entityBody limit [] : Scan S (List Char))
  .ofExcept (Entity.decode body)

/-- Consumes an escape whose backslash has been consumed. -/
def readEscape (limit : Nat) (s : S) : Except LexError Char × S :=
  match _h : next s with
  | (.error e, s₁) => (.error e, s₁)
  | (.ok c, s₁) =>
    if c = '&' then
      match _hn : isNext s₁ '\\' with
      | (true, s₂) => readEscape limit (skip s₂)
      | (false, s₂) => readEntity limit s₂
    else
      (.ok (unescape c), s₁)
termination_by waiting s
decreasing_by
  have := waiting_next_lt _h
  have := waiting_isNext_le _hn
  have := waiting_skip_le s₂
  omega

theorem waiting_entityBody_le (limit : Nat) (body : List Char) (s : S) :
    waiting (entityBody limit body s).2 ≤ waiting s := by
  fun_induction entityBody limit body s with
  | case1 body s e s' h =>
    have hle := waiting_next_le s
    rwa [h] at hle
  | case2 body s s' h => exact Nat.le_of_lt (waiting_next_lt h)
  | case3 body s c s' h _ _ => exact Nat.le_of_lt (waiting_next_lt h)
  | case4 body s c s' h _ _ ih => exact Nat.le_trans ih (Nat.le_of_lt (waiting_next_lt h))

theorem waiting_readEntity_le (limit : Nat) (s : S) :
    waiting (readEntity limit s).2 ≤ waiting s := by
  have hle := waiting_entityBody_le limit [] s
  simp only [readEntity, bind, Scan.andThen, Scan.ofExcept]
  split <;> simp_all

theorem waiting_readEscape_le (limit : Nat) (s : S) :
    waiting (readEscape limit s).2 ≤ waiting s := by
  fun_induction readEscape limit s with
  | case1 s e s₁ h =>
    have hle := waiting_next_le s
    rwa [h] at hle
  | case2 s s₁ s₂ hn h ih =>
    have := waiting_next_lt h
    have := waiting_isNext_le hn
    have := waiting_skip_le s₂
    omega
  | case3 s s₁ s₂ hn h =>
    have := waiting_next_lt h
    have := waiting_isNext_le hn
    have := waiting_readEntity_le limit s₂
    omega
  | case4 s c s₁ h _ => exact Nat.le_of_lt (waiting_next_lt h)

/-- Consumes the rest of one item of a string, given its first character. -/
def stringItem (limit : Nat) (c : Char) (s : S) : Except LexError Char × S :=
  if c = '\\' then readEscape limit s else (.ok c, s)

theorem waiting_stringItem_le (limit : Nat) (c : Char) (s : S) :
    waiting (stringItem limit c s).2 ≤ waiting s := by
  unfold stringItem
  split
  · exact waiting_readEscape_le limit s
  · exact Nat.le_refl _

/-- Consumes a string through its closing quote, and answers its decoded text. -/
def stringBody (limit : Nat) (quote : Char) (s : S) : Except LexError (List Char) × S :=
  match _h : next s with
  | (.error e, s₁) => (.error e, s₁)
  | (.ok c, s₁) =>
    if c = quote then
      (.ok [], s₁)
    else
      match _hi : stringItem limit c s₁ with
      | (.error e, s₂) => (.error e, s₂)
      | (.ok d, s₂) =>
        match stringBody limit quote s₂ with
        | (.error e, s₃) => (.error e, s₃)
        | (.ok text, s₃) => (.ok (d :: text), s₃)
termination_by waiting s
decreasing_by
  have := waiting_next_lt _h
  have hle := waiting_stringItem_le limit c s₁
  rw [_hi] at hle
  exact Nat.lt_of_le_of_lt hle ‹_›

theorem waiting_stringBody_le (limit : Nat) (quote : Char) (s : S) :
    waiting (stringBody limit quote s).2 ≤ waiting s := by
  fun_induction stringBody limit quote s with
  | case1 s e s₁ h =>
    have hle := waiting_next_le s
    rwa [h] at hle
  | case2 s s₁ h => exact Nat.le_of_lt (waiting_next_lt h)
  | case3 s c s₁ h _ e s₂ hi =>
    have := waiting_next_lt h
    have hle := waiting_stringItem_le limit c s₁
    rw [hi] at hle
    exact Nat.le_trans hle (Nat.le_of_lt ‹_›)
  | case4 s c s₁ h _ d s₂ hi e s₃ hb ih =>
    have := waiting_next_lt h
    have hle := waiting_stringItem_le limit c s₁
    rw [hi] at hle
    rw [hb] at ih
    exact Nat.le_trans ih (Nat.le_trans hle (Nat.le_of_lt ‹_›))
  | case5 s c s₁ h _ d s₂ hi text s₃ hb ih =>
    have := waiting_next_lt h
    have hle := waiting_stringItem_le limit c s₁
    rw [hi] at hle
    rw [hb] at ih
    exact Nat.le_trans ih (Nat.le_trans hle (Nat.le_of_lt ‹_›))

end RewindLexer
