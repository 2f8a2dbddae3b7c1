import RewindLexer.Lexer.Basic

/-!
# Streams that a scanner cannot tell apart

A scanner sees of its stream only the answers to its questions. `Alike S S'` is a relation between
two kinds of streams that answer alike and stay related, step by step. A scanner puts something back
only right after it has read it, so the relation may say more about streams from which something
has just been read. Main statement: on related streams `scan` gives the same answer and leaves
related streams, whatever the tokens are made by.
-/

namespace RewindLexer

open CharStream FiniteStream Text

universe u v

/-! ## One step of each loop -/

section

variable {S : Type u} [FiniteStream S]

theorem skipLine_eq (s : S) :
    skipLine s =
      match next s with
      | (.error _, s₁) => s₁
      | (.ok c, s₁) => if endsLine c then s₁ else skipLine s₁ := by
  rw [skipLine]
  split <;> rename_i h <;> simp only [h]

theorem skipTrivia_eq (s : S) :
    skipTrivia s =
      match hasNext s with
      | (false, s₁) => (.ok (), s₁)
      | (true, s₁) =>
        match next s₁ with
        | (.error e, s₂) => (.error e, s₂)
        | (.ok c, s₂) =>
          match opensComment c s₂ with
          | (true, s₃) => skipTrivia (skipComment s₃)
          | (false, s₃) => if isBlank c then skipTrivia s₃ else unread s₃ c := by
  rw [skipTrivia]
  split <;> rename_i hn <;> simp only [hn]
  split <;> rename_i h <;> simp only [h]
  split <;> rename_i ho <;> simp only [ho]

theorem takeRun_eq (p : Char → Bool) (s : S) :
    takeRun p s =
      match hasNext s with
      | (false, s₁) => (.ok (), s₁)
      | (true, s₁) =>
        match next s₁ with
        | (.error e, s₂) => (.error e, s₂)
        | (.ok c, s₂) => if p c then takeRun p s₂ else unread s₂ c := by
  rw [takeRun]
  split <;> rename_i hn <;> simp only [hn]
  split <;> rename_i h <;> simp only [h]

theorem takeDigits_eq (s : S) :
    takeDigits s =
      if Numeral.isDigit (nextD s '\x00').1 then takeDigits (nextD s '\x00').2
      else (nextD s '\x00').2 := by
  rw [takeDigits]

theorem entityBody_eq (limit : Nat) (body : List Char) (s : S) :
    entityBody limit body s =
      match next s with
      | (.error e, s₁) => (.error e, s₁)
      | (.ok c, s₁) =>
        if c = ';' then (.ok body.reverse, s₁)
        else if limit < (c :: body).length then
          (.error (.malformedEscape (String.ofList (c :: body).reverse)), s₁)
        else entityBody limit (c :: body) s₁ := by
  rw [entityBody]
  split <;> rename_i h <;> simp only [h]

theorem readEscape_eq (limit : Nat) (s : S) :
    readEscape limit s =
      match next s with
      | (.error e, s₁) => (.error e, s₁)
      | (.ok c, s₁) =>
        if c = '&' then
          match isNext s₁ '\\' with
          | (true, s₂) => readEscape limit (skip s₂)
          | (false, s₂) => readEntity limit s₂
        else (.ok (unescape c), s₁) := by
  rw [readEscape]
  split <;> rename_i h <;> simp only [h]
  split
  · split <;> rename_i hi <;> simp only [hi]
  · rfl

theorem stringBody_eq (limit : Nat) (quote : Char) (s : S) :
    stringBody limit quote s =
      match next s with
      | (.error e, s₁) => (.error e, s₁)
      | (.ok c, s₁) =>
        if c = quote then (.ok [], s₁)
        else
          match stringItem limit c s₁ with
          | (.error e, s₂) => (.error e, s₂)
          | (.ok d, s₂) =>
            ((stringBody limit quote s₂).1.map (d :: ·), (stringBody limit quote s₂).2) := by
  rw [stringBody]
  split <;> rename_i h <;> simp only [h]
  split
  · rfl
  · split <;> rename_i hi <;> simp only [hi]
    split <;> rename_i hb <;> simp only [hb] <;> rfl

end

/-! ## Results that agree -/

variable {S : Type u} {S' : Type v} {α β : Type}

/-- Two steps have given the same answer and have left streams of which `R` holds. -/
structure Same (R : S → S' → Prop) (x : α × S) (x' : α × S') : Prop where
  answer : x.1 = x'.1
  left : R x.2 x'.2

namespace Same

variable {R : S → S' → Prop} {s : S} {s' : S'}

theorem of_eq {x : α × S} {x' : α × S'} {a : α} (h : Same R x x') (hx : x = (a, s)) :
    ∃ s', x' = (a, s') ∧ R s s' := by
  cases hx
  exact ⟨x'.2, Prod.ext h.answer.symm rfl, h.left⟩

theorem bind {x : Scan S α} {x' : Scan S' α} {f : α → Scan S β} {f' : α → Scan S' β}
    (h : Same R (x s) (x' s')) (hf : ∀ a s₁ s₁', R s₁ s₁' → Same R (f a s₁) (f' a s₁')) :
    Same R ((x >>= f) s) ((x' >>= f') s') := by
  cases hx : x s with
  | mk answer s₁ =>
    obtain ⟨s₁', hx', h₁⟩ := h.of_eq hx
    cases answer with
    | ok a =>
      rw [Scan.bind_eq_of_ok hx, Scan.bind_eq_of_ok hx']
      exact hf a s₁ s₁' h₁
    | error e =>
      rw [Scan.bind_eq_of_error hx, Scan.bind_eq_of_error hx']
      exact ⟨rfl, h₁⟩

theorem mapError {x : Scan S α} {x' : Scan S' α} (f : LexError → LexError)
    (h : Same R (x s) (x' s')) : Same R (Scan.mapError f x s) (Scan.mapError f x' s') := by
  cases hx : x s with
  | mk answer s₁ =>
    obtain ⟨s₁', hx', h₁⟩ := h.of_eq hx
    cases answer with
    | ok a =>
      rw [Scan.mapError_eq_of_ok hx, Scan.mapError_eq_of_ok hx']
      exact ⟨rfl, h₁⟩
    | error e =>
      rw [Scan.mapError_eq_of_error hx, Scan.mapError_eq_of_error hx']
      exact ⟨rfl, h₁⟩

end Same

/-! ## Related streams -/

/-- Relations between streams that are kept by what a scanner does. -/
structure Alike (S : Type u) (S' : Type v) [CharStream S] [CharStream S'] where
  rest : S → S' → Prop
  /-- The streams are related, and a character has just been consumed from them. -/
  held : S → S' → Prop
  /-- The streams are related, and a read has just been made that may have been past the end. -/
  undoable : S → S' → Prop
  rest_of_held {s : S} {s' : S'} : held s s' → rest s s'
  rest_of_undoable {s : S} {s' : S'} : undoable s s' → rest s s'
  hasNext {s : S} {s' : S'} : rest s s' → Same rest (CharStream.hasNext s) (CharStream.hasNext s')
  peek {s : S} {s' : S'} : rest s s' → Same rest (CharStream.peek s) (CharStream.peek s')
  isNext {s : S} {s' : S'} (c : Char) :
    rest s s' → Same rest (CharStream.isNext s c) (CharStream.isNext s' c)
  /-- A comment mark is looked for right behind its first character. -/
  isNextList {s : S} {s' : S'} : held s s' →
    Same held (CharStream.isNextList s ['#', '#']) (CharStream.isNextList s' ['#', '#'])
  next {s : S} {s' : S'} : rest s s' → Same rest (CharStream.next s) (CharStream.next s')
  held_of_next {s : S} {s' : S'} {c : Char} : rest s s' → (CharStream.next s).1 = .ok c →
    held (CharStream.next s).2 (CharStream.next s').2
  nextD {s : S} {s' : S'} (c : Char) :
    rest s s' → Same undoable (CharStream.nextD s c) (CharStream.nextD s' c)
  unread {s : S} {s' : S'} (c : Char) :
    held s s' → Same rest (CharStream.unread s c) (CharStream.unread s' c)
  backUp {s : S} {s' : S'} :
    undoable s s' → Same rest (CharStream.backUp s) (CharStream.backUp s')
  startRecording {s : S} {s' : S'} :
    rest s s' → rest (CharStream.startRecording s) (CharStream.startRecording s')
  stopRecording {s : S} {s' : S'} :
    rest s s' → Same rest (CharStream.stopRecording s) (CharStream.stopRecording s')
  isRecording {s : S} {s' : S'} :
    rest s s' → CharStream.isRecording s = CharStream.isRecording s'
  position {s : S} {s' : S'} : rest s s' → CharStream.position s = CharStream.position s'

namespace Alike

variable [FiniteStream S] [FiniteStream S'] (A : Alike S S') {s s₁ s₂ : S} {s' s₁' : S'} {c : Char}

theorem skip (h : A.rest s s') : A.rest (CharStream.skip s) (CharStream.skip s') :=
  A.rest_of_undoable (A.nextD '\x00' h).left

theorem peekD (h : A.rest s s') (c : Char) :
    Same A.rest (CharStream.peekD s c) (CharStream.peekD s' c) :=
  ⟨congrArg (Option.getD · c) (A.peek h).answer, (A.peek h).left⟩

/-- A character that is consumed from one stream is consumed from the other. -/
theorem next_of_ok (h : A.rest s s') (hn : CharStream.next s = (.ok c, s₁)) :
    ∃ s₁', CharStream.next s' = (.ok c, s₁') ∧ A.held s₁ s₁' := by
  obtain ⟨s₁', hn', -⟩ := (A.next h).of_eq hn
  have hh := A.held_of_next h (congrArg Prod.fst hn)
  rw [hn, hn'] at hh
  exact ⟨s₁', hn', hh⟩

theorem read_of_ok (h : A.rest s s') {b : Bool} (hn : CharStream.hasNext s = (b, s₁))
    (hnext : CharStream.next s₁ = (.ok c, s₂)) :
    ∃ s₁' s₂', CharStream.hasNext s' = (b, s₁') ∧ CharStream.next s₁' = (.ok c, s₂') ∧
      A.held s₂ s₂' := by
  obtain ⟨s₁', hn', h₁⟩ := (A.hasNext h).of_eq hn
  obtain ⟨s₂', hnext', h₂⟩ := A.next_of_ok h₁ hnext
  exact ⟨s₁', s₂', hn', hnext', h₂⟩

/-! ## Blanks and comments -/

theorem skipLine (h : A.rest s s') : A.rest (skipLine s) (skipLine s') := by
  fun_induction RewindLexer.skipLine s generalizing s' with
  | case1 s e s₁ hn =>
    obtain ⟨s₁', hn', h₁⟩ := (A.next h).of_eq hn
    rw [skipLine_eq, hn']
    exact h₁
  | case2 s c s₁ hn hc =>
    obtain ⟨s₁', hn', h₁⟩ := A.next_of_ok h hn
    simp only [skipLine_eq s', hn', if_pos hc]
    exact A.rest_of_held h₁
  | case3 s c s₁ hn hc ih =>
    obtain ⟨s₁', hn', h₁⟩ := A.next_of_ok h hn
    simp only [skipLine_eq s', hn', if_neg hc]
    exact ih (A.rest_of_held h₁)

theorem skipComment (h : A.rest s s') : A.rest (skipComment s) (skipComment s') :=
  A.skipLine (A.skip (A.skip h))

theorem opensComment (h : A.held s s') (c : Char) :
    Same A.held (opensComment c s) (opensComment c s') := by
  unfold RewindLexer.opensComment
  split
  · exact A.isNextList h
  · exact ⟨rfl, h⟩

theorem skipTrivia (h : A.rest s s') : Same A.rest (skipTrivia s) (skipTrivia s') := by
  fun_induction RewindLexer.skipTrivia s generalizing s' with
  | case1 s s₁ hn =>
    obtain ⟨s₁', hn', h₁⟩ := (A.hasNext h).of_eq hn
    rw [skipTrivia_eq, hn']
    exact ⟨rfl, h₁⟩
  | case2 s s₁ hn e s₂ hnext =>
    obtain ⟨s₁', hn', h₁⟩ := (A.hasNext h).of_eq hn
    obtain ⟨s₂', hnext', h₂⟩ := (A.next h₁).of_eq hnext
    simp only [skipTrivia_eq s', hn', hnext']
    exact ⟨rfl, h₂⟩
  | case3 s s₁ hn c s₂ hnext s₃ ho ih =>
    obtain ⟨s₁', s₂', hn', hnext', h₂⟩ := A.read_of_ok h hn hnext
    obtain ⟨s₃', ho', h₃⟩ := (A.opensComment h₂ c).of_eq ho
    simp only [skipTrivia_eq s', hn', hnext', ho']
    exact ih (A.skipComment (A.rest_of_held h₃))
  | case4 s s₁ hn c s₂ hnext s₃ ho hc ih =>
    obtain ⟨s₁', s₂', hn', hnext', h₂⟩ := A.read_of_ok h hn hnext
    obtain ⟨s₃', ho', h₃⟩ := (A.opensComment h₂ c).of_eq ho
    simp only [skipTrivia_eq s', hn', hnext', ho', if_pos hc]
    exact ih (A.rest_of_held h₃)
  | case5 s s₁ hn c s₂ hnext s₃ ho hc =>
    -- The character is still the one consumed last, so it can be put back.
    obtain ⟨s₁', s₂', hn', hnext', h₂⟩ := A.read_of_ok h hn hnext
    obtain ⟨s₃', ho', h₃⟩ := (A.opensComment h₂ c).of_eq ho
    simp only [skipTrivia_eq s', hn', hnext', ho', if_neg hc]
    exact A.unread c h₃

/-! ## Runs -/

theorem takeRun (p : Char → Bool) (h : A.rest s s') :
    Same A.rest (takeRun p s) (takeRun p s') := by
  fun_induction RewindLexer.takeRun p s generalizing s' with
  | case1 s s₁ hn =>
    obtain ⟨s₁', hn', h₁⟩ := (A.hasNext h).of_eq hn
    rw [takeRun_eq, hn']
    exact ⟨rfl, h₁⟩
  | case2 s s₁ hn e s₂ hnext =>
    obtain ⟨s₁', hn', h₁⟩ := (A.hasNext h).of_eq hn
    obtain ⟨s₂', hnext', h₂⟩ := (A.next h₁).of_eq hnext
    simp only [takeRun_eq p s', hn', hnext']
    exact ⟨rfl, h₂⟩
  | case3 s s₁ hn c s₂ hnext hc ih =>
    obtain ⟨s₁', s₂', hn', hnext', h₂⟩ := A.read_of_ok h hn hnext
    simp only [takeRun_eq p s', hn', hnext', if_pos hc]
    exact ih (A.rest_of_held h₂)
  | case4 s s₁ hn c s₂ hnext hc =>
    obtain ⟨s₁', s₂', hn', hnext', h₂⟩ := A.read_of_ok h hn hnext
    simp only [takeRun_eq p s', hn', hnext', if_neg hc]
    exact A.unread c h₂

theorem takeDigits (h : A.rest s s') : A.undoable (takeDigits s) (takeDigits s') := by
  fun_induction RewindLexer.takeDigits s generalizing s' with
  | case1 s c s₁ hn hc ih =>
    obtain ⟨s₁', hn', h₁⟩ := (A.nextD '\x00' h).of_eq hn
    simp only [takeDigits_eq s', hn', if_pos hc]
    exact ih (A.rest_of_undoable h₁)
  | case2 s c s₁ hn hc =>
    obtain ⟨s₁', hn', h₁⟩ := (A.nextD '\x00' h).of_eq hn
    simp only [takeDigits_eq s', hn', if_neg hc]
    exact h₁

/-! ## The inside of strings -/

theorem entityBody (limit : Nat) (body : List Char) (h : A.rest s s') :
    Same A.rest (entityBody limit body s) (entityBody limit body s') := by
  fun_induction RewindLexer.entityBody limit body s generalizing s' with
  | case1 body s e s₁ hn =>
    obtain ⟨s₁', hn', h₁⟩ := (A.next h).of_eq hn
    rw [entityBody_eq, hn']
    exact ⟨rfl, h₁⟩
  | case2 body s s₁ hn =>
    obtain ⟨s₁', hn', h₁⟩ := A.next_of_ok h hn
    simp only [entityBody_eq limit body s', hn', if_true]
    exact ⟨rfl, A.rest_of_held h₁⟩
  | case3 body s c s₁ hn hc hl =>
    obtain ⟨s₁', hn', h₁⟩ := A.next_of_ok h hn
    simp only [entityBody_eq limit body s', hn', if_neg hc, if_pos hl]
    exact ⟨rfl, A.rest_of_held h₁⟩
  | case4 body s c s₁ hn hc hl ih =>
    obtain ⟨s₁', hn', h₁⟩ := A.next_of_ok h hn
    simp only [entityBody_eq limit body s', hn', if_neg hc, if_neg hl]
    exact ih (A.rest_of_held h₁)

theorem readEntity (limit : Nat) (h : A.rest s s') :
    Same A.rest (readEntity limit s) (readEntity limit s') := by
  refine (A.entityBody limit [] h).bind ?_
  intro body s₁ s₁' h₁
  exact ⟨rfl, h₁⟩

theorem readEscape (limit : Nat) (h : A.rest s s') :
    Same A.rest (readEscape limit s) (readEscape limit s') := by
  fun_induction RewindLexer.readEscape limit s generalizing s' with
  | case1 s e s₁ hn =>
    obtain ⟨s₁', hn', h₁⟩ := (A.next h).of_eq hn
    rw [readEscape_eq, hn']
    exact ⟨rfl, h₁⟩
  | case2 s s₁ s₂ hi hn ih =>
    obtain ⟨s₁', hn', h₁⟩ := A.next_of_ok h hn
    obtain ⟨s₂', hi', h₂⟩ := (A.isNext '\\' (A.rest_of_held h₁)).of_eq hi
    simp only [readEscape_eq limit s', hn', hi', if_true]
    exact ih (A.skip h₂)
  | case3 s s₁ s₂ hi hn =>
    obtain ⟨s₁', hn', h₁⟩ := A.next_of_ok h hn
    obtain ⟨s₂', hi', h₂⟩ := (A.isNext '\\' (A.rest_of_held h₁)).of_eq hi
    simp only [readEscape_eq limit s', hn', hi', if_true]
    exact A.readEntity limit h₂
  | case4 s c s₁ hn hc =>
    obtain ⟨s₁', hn', h₁⟩ := A.next_of_ok h hn
    simp only [readEscape_eq limit s', hn', if_neg hc]
    exact ⟨rfl, A.rest_of_held h₁⟩

theorem stringItem (limit : Nat) (c : Char) (h : A.rest s s') :
    Same A.rest (stringItem limit c s) (stringItem limit c s') := by
  unfold RewindLexer.stringItem
  split
  · exact A.readEscape limit h
  · exact ⟨rfl, h⟩

theorem stringBody (limit : Nat) (quote : Char) (h : A.rest s s') :
    Same A.rest (stringBody limit quote s) (stringBody limit quote s') := by
  fun_induction RewindLexer.stringBody limit quote s generalizing s' with
  | case1 s e s₁ hn =>
    obtain ⟨s₁', hn', h₁⟩ := (A.next h).of_eq hn
    rw [stringBody_eq, hn']
    exact ⟨rfl, h₁⟩
  | case2 s s₁ hn =>
    obtain ⟨s₁', hn', h₁⟩ := A.next_of_ok h hn
    simp only [stringBody_eq limit quote s', hn', if_true]
    exact ⟨rfl, A.rest_of_held h₁⟩
  | case3 s c s₁ hn hq e s₂ hi =>
    obtain ⟨s₁', hn', h₁⟩ := A.next_of_ok h hn
    obtain ⟨s₂', hi', h₂⟩ := (A.stringItem limit c (A.rest_of_held h₁)).of_eq hi
    simp only [stringBody_eq limit quote s', hn', if_neg hq, hi']
    exact ⟨rfl, h₂⟩
  | case4 s c s₁ hn hq d s₂ hi e s₃ hb ih =>
    obtain ⟨s₁', hn', h₁⟩ := A.next_of_ok h hn
    obtain ⟨s₂', hi', h₂⟩ := (A.stringItem limit c (A.rest_of_held h₁)).of_eq hi
    obtain ⟨s₃', hb', h₃⟩ := (ih h₂).of_eq hb
    simp only [stringBody_eq limit quote s', hn', if_neg hq, hi', hb']
    exact ⟨rfl, h₃⟩
  | case5 s c s₁ hn hq d s₂ hi text s₃ hb ih =>
    obtain ⟨s₁', hn', h₁⟩ := A.next_of_ok h hn
    obtain ⟨s₂', hi', h₂⟩ := (A.stringItem limit c (A.rest_of_held h₁)).of_eq hi
    obtain ⟨s₃', hb', h₃⟩ := (ih h₂).of_eq hb
    simp only [stringBody_eq limit quote s', hn', if_neg hq, hi', hb']
    exact ⟨rfl, h₃⟩

/-! ## Kinds of tokens -/

variable {τ : Type} (b : TokenBuilder τ)

theorem gatherName (h : A.rest s s') : Same A.rest (gatherName b s) (gatherName b s') := by
  simp only [RewindLexer.gatherName, Scan.bind_act]
  refine (A.takeRun isNameChar (A.startRecording h)).bind ?_
  intro _ s₁ s₁' h₁
  obtain ⟨hl, h₂⟩ := A.stopRecording h₁
  simp only [Scan.bind_ask, hl]
  split
  · exact ⟨rfl, h₂⟩
  · exact ⟨rfl, h₂⟩

theorem gatherString (limit : Nat) (h : A.rest s s') :
    Same A.rest (gatherString b limit s) (gatherString b limit s') := by
  simp only [RewindLexer.gatherString, Scan.bind_act]
  refine (A.next (A.startRecording h)).bind ?_
  intro quote s₁ s₁' h₁
  split
  · refine ((A.stringBody limit quote h₁).mapError (closing quote)).bind ?_
    intro value s₂ s₂' h₂
    obtain ⟨hl, h₃⟩ := A.stopRecording h₂
    simp only [Scan.bind_ask, hl]
    exact ⟨rfl, h₃⟩
  · exact ⟨rfl, h₁⟩

theorem gatherInteger (h : A.rest s s') :
    Same A.rest (gatherInteger b s) (gatherInteger b s') := by
  simp only [RewindLexer.gatherInteger, Scan.bind_act]
  refine (A.next (A.startRecording h)).bind ?_
  intro _ s₁ s₁' h₁
  simp only [Scan.bind_act]
  refine (A.backUp (A.takeDigits h₁)).bind ?_
  intro _ s₂ s₂' h₂
  obtain ⟨hl, h₃⟩ := A.stopRecording h₂
  simp only [Scan.bind_ask, hl]
  cases Numeral.int64? (CharStream.stopRecording s₂').1 with
  | some value => exact ⟨rfl, h₃⟩
  | none => exact ⟨rfl, h₃⟩

theorem gatherChar (h : A.rest s s') : Same A.rest (gatherChar b s) (gatherChar b s') := by
  simp only [RewindLexer.gatherChar, Scan.bind_act]
  refine (A.next (A.startRecording h)).bind ?_
  intro _ s₁ s₁' h₁
  obtain ⟨hl, h₂⟩ := A.stopRecording h₁
  simp only [Scan.bind_ask, hl]
  exact ⟨rfl, h₂⟩

theorem gatherSymbol (h : A.rest s s') :
    Same A.rest (gatherSymbol b s) (gatherSymbol b s') := by
  simp only [RewindLexer.gatherSymbol, Scan.bind_act]
  refine (A.next (A.startRecording h)).bind ?_
  intro _ s₁ s₁' h₁
  refine (A.takeRun isSign h₁).bind ?_
  intro _ s₂ s₂' h₂
  obtain ⟨hl, h₃⟩ := A.stopRecording h₂
  simp only [Scan.bind_ask, hl]
  exact ⟨rfl, h₃⟩

theorem gather (o : Options) (c : Char) (h : A.rest s s') :
    Same A.rest (gather b o c s) (gather b o c s') := by
  unfold RewindLexer.gather
  split
  · exact A.gatherName b h
  split
  · exact A.gatherString b o.maxEntityLength h
  split
  · exact A.gatherInteger b h
  split
  · exact A.gatherChar b h
  split
  · exact A.gatherSymbol b h
  · exact ⟨rfl, h⟩

theorem scan (o : Options) (h : A.rest s s') : Same A.rest (scan b o s) (scan b o s') := by
  refine (A.skipTrivia h).bind ?_
  intro _ s₁ s₁' h₁
  obtain ⟨hn, h₂⟩ := A.hasNext h₁
  simp only [Scan.bind_ask, hn]
  split
  · obtain ⟨hp, h₃⟩ := A.peekD h₂ '\x00'
    simp only [Scan.bind_ask, hp]
    exact A.gather b o _ h₃
  · exact ⟨rfl, h₂⟩

end Alike

end RewindLexer
