import RewindLexer.Stream.Finite

/-!
# Streams that misreport

A stream that gives fixed answers to the two questions by which a scanner finds out what lies ahead,
and is sound otherwise. It shows what a scanner does on a stream that does not keep its word.
-/

namespace RewindLexer

universe u

/-- A stream with fixed answers to what lies ahead. -/
structure Misreporting (S : Type u) where
  stream : S
  /-- The answer to whether there is a next character. -/
  hasNextAnswer : Option Bool := none
  /-- The answer to what the next character is, if there is one. -/
  peekAnswer : Option Char := none

namespace Misreporting

variable {S : Type u}

/-- Carries a step of the stream over. -/
def step {α : Type} (m : Misreporting S) (f : S → α × S) : α × Misreporting S :=
  let (answer, stream) := f m.stream
  (answer, { m with stream := stream })

/-- Whether there is a next character, as reported. -/
def hasNext [CharStream S] (m : Misreporting S) : Bool × Misreporting S :=
  let (answer, m) := m.step CharStream.hasNext
  (m.hasNextAnswer.getD answer, m)

/-- The next character, as reported. -/
def peek [CharStream S] (m : Misreporting S) : Option Char × Misreporting S :=
  let (answer, m) := m.step CharStream.peek
  (answer.map m.peekAnswer.getD, m)

instance [CharStream S] : CharStream (Misreporting S) where
  hasNext := hasNext
  next m := m.step CharStream.next
  nextD m c := m.step (CharStream.nextD · c)
  unread m c := m.step (CharStream.unread · c)
  backUp m := m.step CharStream.backUp
  peek := peek
  isNext m c := m.step (CharStream.isNext · c)
  isNextList m text := m.step (CharStream.isNextList · text)
  startRecording m := { m with stream := CharStream.startRecording m.stream }
  stopRecording m := m.step CharStream.stopRecording
  isRecording m := CharStream.isRecording m.stream
  position m := CharStream.position m.stream

open FiniteStream

instance [FiniteStream S] : FiniteStream (Misreporting S) where
  gauge m := gauge m.stream
  settled_hasNext m := settled_hasNext m.stream
  settled_peek m := settled_peek m.stream
  settled_isNext m := settled_isNext m.stream
  settled_isNextList m := settled_isNextList m.stream
  advanced_next h := advanced_next h
  settled_next h := settled_next h
  advanced_nextD m := advanced_nextD m.stream
  returned_unread m := returned_unread m.stream
  returned_backUp m := returned_backUp m.stream
  gauge_startRecording m := gauge_startRecording m.stream
  gauge_stopRecording m := gauge_stopRecording m.stream
  length_stopRecording m := length_stopRecording m.stream

end Misreporting

end RewindLexer
