import RewindLexer.Error

/-!
# Scanning steps

A step reads from a stream and succeeds or fails; either way the stream is left where the step
stopped.
-/

namespace RewindLexer

universe u

/-- A step on a stream that may fail. -/
def Scan (S : Type u) (α : Type) : Type u :=
  S → Except LexError α × S

namespace Scan

variable {S : Type u} {α β : Type}

/-- Runs one step, then the one that its answer asks for. -/
def andThen (x : Scan S α) (f : α → Scan S β) : Scan S β := fun s =>
  match x s with
  | (.ok a, s) => f a s
  | (.error e, s) => (.error e, s)

instance : Monad (Scan S) where
  pure a s := (.ok a, s)
  bind := andThen

/-- A step that cannot fail. -/
def ask (f : S → α × S) : Scan S α := fun s =>
  (.ok (f s).1, (f s).2)

/-- A step that only changes the stream. -/
def act (f : S → S) : Scan S Unit := fun s =>
  (.ok (), f s)

/-- A step that fails. -/
def fail (e : LexError) : Scan S α := fun s =>
  (.error e, s)

/-- A step whose answer is known beforehand. -/
def ofExcept (r : Except LexError α) : Scan S α := fun s =>
  (r, s)

/-- Changes the errors of a step. -/
def mapError (f : LexError → LexError) (x : Scan S α) : Scan S α := fun s =>
  match x s with
  | (.ok a, s) => (.ok a, s)
  | (.error e, s) => (.error (f e), s)

@[simp]
theorem pure_apply (a : α) (s : S) : (pure a : Scan S α) s = (.ok a, s) :=
  rfl

@[simp]
theorem fail_apply (e : LexError) (s : S) : (fail e : Scan S α) s = (.error e, s) :=
  rfl

@[simp]
theorem ofExcept_apply (r : Except LexError α) (s : S) : (ofExcept r : Scan S α) s = (r, s) :=
  rfl

@[simp]
theorem bind_ask (f : S → α × S) (k : α → Scan S β) (s : S) :
    (ask f >>= k) s = k (f s).1 (f s).2 :=
  rfl

@[simp]
theorem bind_act (f : S → S) (k : Unit → Scan S β) (s : S) : (act f >>= k) s = k () (f s) :=
  rfl

theorem bind_ok {x : Scan S α} {f : α → Scan S β} {s s' : S} {b : β}
    (h : (x >>= f) s = (.ok b, s')) :
    ∃ a s₁, x s = (.ok a, s₁) ∧ f a s₁ = (.ok b, s') := by
  simp only [bind, andThen] at h
  split at h
  · rename_i a s₁ hx
    exact ⟨a, s₁, hx, h⟩
  · simp at h

theorem bind_eq_of_ok {x : Scan S α} {f : α → Scan S β} {s s₁ : S} {a : α}
    (h : x s = (.ok a, s₁)) : (x >>= f) s = f a s₁ := by
  simp only [bind, andThen, h]

theorem bind_eq_of_error {x : Scan S α} {f : α → Scan S β} {s s₁ : S} {e : LexError}
    (h : x s = (.error e, s₁)) : (x >>= f) s = (.error e, s₁) := by
  simp only [bind, andThen, h]

theorem mapError_eq_of_ok {f : LexError → LexError} {x : Scan S α} {s s₁ : S} {a : α}
    (h : x s = (.ok a, s₁)) : mapError f x s = (.ok a, s₁) := by
  simp only [mapError, h]

theorem mapError_eq_of_error {f : LexError → LexError} {x : Scan S α} {s s₁ : S} {e : LexError}
    (h : x s = (.error e, s₁)) : mapError f x s = (.error (f e), s₁) := by
  simp only [mapError, h]

end Scan

end RewindLexer
