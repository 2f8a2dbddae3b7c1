import RewindLexer.Error
import RewindLexer.Lookahead

/-!
# Tapes

A tape is a lookahead of characters that counts what is consumed and can record it. The record is
the text of the token being scanned, and at the same time the means to undo: what was recorded last
can be put back, as far as the start of the recording. A read past the end of the input leaves no
character to put back; it is counted instead, and undone first.
-/

namespace RewindLexer

universe u

/-- A stream of characters with a position and a record of what was consumed. -/
structure Tape (σ : Type u) where
  ahead : Lookahead σ Char
  recording : Bool := false
  /-- The characters recorded, the last one first. -/
  log : List Char := []
  /-- The number of reads past the end that have not been undone. -/
  endCount : Nat := 0
  /-- The number of characters consumed and not put back. -/
  position : Nat := 0

namespace Tape

variable {σ : Type u} [Source σ Char]

/-- A tape over a source, at its start. -/
def ofSource {σ : Type u} (source : σ) : Tape σ where
  ahead := { source := source }

/-- The characters recorded so far, in the order of consumption. -/
def recorded {σ : Type u} (t : Tape σ) : List Char :=
  t.log.reverse

/-! ## Consuming and putting back -/

/-- The tape after a character has been taken from the lookahead. -/
def consumed {σ : Type u} (t : Tape σ) (c : Char) (ahead : Lookahead σ Char) : Tape σ :=
  { t with
    ahead := ahead
    log := if t.recording then c :: t.log else t.log
    position := t.position + 1 }

/-- The tape after a character has been given back to the lookahead. -/
def putBack {σ : Type u} (t : Tape σ) (c : Char) (log : List Char) : Tape σ :=
  { t with ahead := t.ahead.unread c, log := log, position := t.position - 1 }

/-- Consumes the next character. -/
def next (t : Tape σ) : Except LexError Char × Tape σ :=
  match t.ahead.next with
  | (some c, ahead) => (.ok c, t.consumed c ahead)
  | (none, ahead) => (.error .endOfInput, { t with ahead := ahead })

/-- Consumes the next character, or counts a read past the end and answers `default`. -/
def nextD (t : Tape σ) (default : Char) : Char × Tape σ :=
  match t.ahead.next with
  | (some c, ahead) => (c, t.consumed c ahead)
  | (none, ahead) => (default, { t with ahead := ahead, endCount := t.endCount + 1 })

/-- Consumes the next character, or counts a read past the end. -/
def skip (t : Tape σ) : Tape σ :=
  (t.nextD '\x00').2

/-- Puts a character in front of the input. While recording it has to be the one recorded last. -/
def unread {σ : Type u} (t : Tape σ) (c : Char) : Except LexError Unit × Tape σ :=
  if t.recording then
    match t.log with
    | [] => (.error (.recordingMismatch c none), t)
    | recorded :: log =>
      if recorded = c then (.ok (), t.putBack c log)
      else (.error (.recordingMismatch c (some recorded)), t)
  else
    (.ok (), t.putBack c t.log)

/-- Undoes the last consumption recorded; reads past the end come first. -/
def backUp {σ : Type u} (t : Tape σ) : Except LexError Unit × Tape σ :=
  match t.endCount with
  | n + 1 => (.ok (), { t with endCount := n })
  | 0 =>
    match t.log with
    | [] => (.error .nothingToBackUp, t)
    | c :: log => (.ok (), t.putBack c log)

/-! ## Looking ahead -/

/-- Whether there is a next character. -/
def hasNext (t : Tape σ) : Bool × Tape σ :=
  let (answer, ahead) := t.ahead.hasNext
  (answer, { t with ahead := ahead })

/-- The next character. -/
def peek (t : Tape σ) : Option Char × Tape σ :=
  let (answer, ahead) := t.ahead.peek
  (answer, { t with ahead := ahead })

/-- The next character, or `default`. -/
def peekD (t : Tape σ) (default : Char) : Char × Tape σ :=
  let (answer, t) := t.peek
  (answer.getD default, t)

/-- Whether the next character is the given one. -/
def isNext (t : Tape σ) (c : Char) : Bool × Tape σ :=
  let (answer, ahead) := t.ahead.isNext c
  (answer, { t with ahead := ahead })

/-- Whether the next characters are the given ones. -/
def isNextList (t : Tape σ) (text : List Char) : Bool × Tape σ :=
  let (answer, ahead) := t.ahead.isNextList text
  (answer, { t with ahead := ahead })

/-! ## Recording -/

/-- Starts a new recording. -/
def startRecording {σ : Type u} (t : Tape σ) : Tape σ :=
  { t with recording := true, log := [], endCount := 0 }

/-- Ends the recording and answers what was consumed since its start. -/
def stopRecording {σ : Type u} (t : Tape σ) : List Char × Tape σ :=
  (t.recorded, { t with recording := false, log := [], endCount := 0 })

/-! ## Showing it -/

/-- The state of a tape, as shown to a reader of messages. -/
def describe {σ : Type u} (t : Tape σ) : String :=
  "RecordingStream \x7b inner: " ++ t.ahead.describe ++
    ", is_recording: " ++ toString t.recording ++
    ", recording: " ++ Text.quotedText t.recorded ++
    ", end_of_file_count: " ++ toString t.endCount ++
    ", position: " ++ toString t.position ++ " \x7d"

end Tape

end RewindLexer
