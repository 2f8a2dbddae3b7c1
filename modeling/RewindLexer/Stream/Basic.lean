import RewindLexer.Error

/-!
# Character streams

What a scanner asks of its input: to look ahead, consume, record and undo.
-/

namespace RewindLexer

universe u

/-- A stream of characters that a scanner can look ahead in, consume, record and undo. -/
class CharStream (S : Type u) where
  /-- Whether there is a next character. -/
  hasNext : S → Bool × S
  /-- Consumes the next character. -/
  next : S → Except LexError Char × S
  /-- Consumes the next character, or counts a read past the end and answers a default. -/
  nextD : S → Char → Char × S
  /-- Puts a character in front of the input. -/
  unread : S → Char → Except LexError Unit × S
  /-- Undoes the last consumption recorded. -/
  backUp : S → Except LexError Unit × S
  /-- The next character. -/
  peek : S → Option Char × S
  /-- Whether the next character is the given one. -/
  isNext : S → Char → Bool × S
  /-- Whether the next characters are the given ones. -/
  isNextList : S → List Char → Bool × S
  /-- Starts a new recording. -/
  startRecording : S → S
  /-- Ends the recording and answers what was consumed since its start. -/
  stopRecording : S → List Char × S
  /-- Whether a recording is going on. -/
  isRecording : S → Bool
  /-- The number of characters consumed and not put back. -/
  position : S → Nat

namespace CharStream

variable {S : Type u} [CharStream S]

/-- Consumes the next character, or counts a read past the end. -/
def skip (s : S) : S :=
  (nextD s '\x00').2

/-- The next character, or a default. -/
def peekD (s : S) (default : Char) : Char × S :=
  let (answer, s) := peek s
  (answer.getD default, s)

end CharStream

end RewindLexer
