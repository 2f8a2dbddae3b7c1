import RewindLexer.Proofs.Lexer.Drivers
import RewindLexer.Proofs.Stream.Alike

/-!
# What is asked of a lexer

A lexer is asked for a token, for the next step of its iterator or for the list of its tokens, in
any order and any number of times. Main statement: lexers on streams that are alike give the same
replies at the same positions.
-/

namespace RewindLexer

universe u v

variable {τ : Type} {S : Type u} {S' : Type v} [FiniteStream S] [FiniteStream S']

namespace Lexer

/-- Something that can be asked of a lexer. -/
inductive Request where
  | readToken
  | next
  | toList
  deriving DecidableEq, Repr

inductive Reply (τ : Type) where
  | token (answer : Except Failure τ)
  | step (answer : Option (Except Failure τ))
  | list (answer : Except Failure (List τ))
  deriving DecidableEq

def perform (l : Lexer τ S) : Request → Reply τ × Lexer τ S
  | .readToken => (.token l.readToken.1, l.readToken.2)
  | .next => (.step l.next.1, l.next.2)
  | .toList => (.list l.toList.1, l.toList.2)

/-- The replies to a series of requests, each with the position after it, and the lexer after
them. -/
def performAll (l : Lexer τ S) : List Request → List (Reply τ × Nat) × Lexer τ S
  | [] => ([], l)
  | request :: requests =>
    let (reply, l') := l.perform request
    let (replies, l'') := performAll l' requests
    ((reply, l'.position) :: replies, l'')

end Lexer

/-! ## Lexers on streams that are alike -/

/-- Two lexers differ in their streams only, and these are related. -/
structure Alike.Lexers (A : Alike S S') (l : Lexer τ S) (l' : Lexer τ S') : Prop where
  builder_eq : l.builder = l'.builder
  options_eq : l.options = l'.options
  finished_eq : l.finished = l'.finished
  rest : A.rest l.stream l'.stream

variable {A : Alike S S'}

theorem Alike.locate (e : LexError) {s : S} {s' : S'} (h : A.rest s s') :
    Same A.rest (Lexer.locate e s) (Lexer.locate e s') := by
  obtain ⟨hl, h₁⟩ := A.stopRecording h
  simp only [Lexer.locate, A.isRecording h]
  split
  · exact ⟨by simp only [hl, A.position h₁], h₁⟩
  · exact ⟨by simp only [A.position h], h⟩

namespace Alike.Lexers

variable {l : Lexer τ S} {l' : Lexer τ S'}

theorem finish (h : A.Lexers l l') :
    A.Lexers { l with finished := true } { l' with finished := true } :=
  ⟨h.builder_eq, h.options_eq, rfl, h.rest⟩

theorem readToken (h : A.Lexers l l') : Same A.Lexers l.readToken l'.readToken := by
  have hscan := A.scan l.builder l.options h.rest
  cases hs : RewindLexer.scan l.builder l.options l.stream with
  | mk answer s =>
    obtain ⟨s', hs', h₁⟩ := hscan.of_eq hs
    cases answer with
    | ok t =>
      simp only [Lexer.readToken, ← h.builder_eq, ← h.options_eq, hs, hs']
      exact ⟨rfl, ⟨rfl, rfl, h.finished_eq, h₁⟩⟩
    | error e =>
      obtain ⟨he, h₂⟩ := Alike.locate e h₁
      simp only [Lexer.readToken, ← h.builder_eq, ← h.options_eq, hs, hs', he]
      exact ⟨rfl, ⟨rfl, rfl, h.finished_eq, h₂⟩⟩

theorem next (h : A.Lexers l l') : Same A.Lexers l.next l'.next := by
  simp only [Lexer.next, ← h.finished_eq, ← h.builder_eq]
  cases hf : l.finished with
  | true => exact ⟨rfl, h⟩
  | false =>
    cases hr : l.readToken with
    | mk answer l₁ =>
      obtain ⟨l₁', hr', h₁⟩ := h.readToken.of_eq hr
      rw [hr']
      cases answer with
      | ok t =>
        simp only [Bool.false_eq_true, if_false]
        split
        · exact ⟨rfl, h₁.finish⟩
        · exact ⟨rfl, h₁⟩
      | error e =>
        cases e with
        | reported e => exact ⟨rfl, h₁.finish⟩
        | aborted e => exact ⟨rfl, h₁⟩

theorem toList (h : A.Lexers l l') : Same A.Lexers l.toList l'.toList := by
  fun_induction Lexer.toList l generalizing l' with
  | case1 l e l₁ hr =>
    obtain ⟨l₁', hr', h₁⟩ := h.readToken.of_eq hr
    rw [Lexer.toList_eq, hr']
    exact ⟨rfl, h₁⟩
  | case2 l t l₁ hr ht =>
    obtain ⟨l₁', hr', h₁⟩ := h.readToken.of_eq hr
    simp only [Lexer.toList_eq l', hr', ← h.builder_eq, if_pos ht]
    exact ⟨rfl, h₁⟩
  | case3 l t l₁ hr ht e l₂ hl ih =>
    obtain ⟨l₁', hr', h₁⟩ := h.readToken.of_eq hr
    obtain ⟨l₂', hl', h₂⟩ := (ih h₁).of_eq hl
    simp only [Lexer.toList_eq l', hr', ← h.builder_eq, if_neg ht, hl']
    exact ⟨rfl, h₂⟩
  | case4 l t l₁ hr ht ts l₂ hl ih =>
    obtain ⟨l₁', hr', h₁⟩ := h.readToken.of_eq hr
    obtain ⟨l₂', hl', h₂⟩ := (ih h₁).of_eq hl
    simp only [Lexer.toList_eq l', hr', ← h.builder_eq, if_neg ht, hl']
    exact ⟨rfl, h₂⟩

theorem perform (h : A.Lexers l l') (request : Lexer.Request) :
    Same A.Lexers (l.perform request) (l'.perform request) := by
  cases request with
  | readToken => exact ⟨congrArg Lexer.Reply.token h.readToken.answer, h.readToken.left⟩
  | next => exact ⟨congrArg Lexer.Reply.step h.next.answer, h.next.left⟩
  | toList => exact ⟨congrArg Lexer.Reply.list h.toList.answer, h.toList.left⟩

theorem performAll (h : A.Lexers l l') (requests : List Lexer.Request) :
    Same A.Lexers (l.performAll requests) (l'.performAll requests) := by
  induction requests generalizing l l' with
  | nil => exact ⟨rfl, h⟩
  | cons request requests ih =>
    obtain ⟨hreply, h₁⟩ := h.perform request
    obtain ⟨hreplies, h₂⟩ := ih h₁
    have hpos : (l.perform request).2.position = (l'.perform request).2.position :=
      A.position h₁.rest
    refine ⟨?_, h₂⟩
    simp only [Lexer.performAll, hreply, hpos, hreplies]

end Alike.Lexers

end RewindLexer
