import RewindLexer.Text.Quoted

/-!
# Errors

Why reading characters or scanning a token fails, and where.
-/

namespace RewindLexer

open Text

/-- Why reading characters or scanning a token fails. -/
inductive LexError where
  /-- A character was needed and there is none. -/
  | endOfInput
  /-- A character was put back while recording that is not the one recorded last. -/
  | recordingMismatch (pushed : Char) (recorded : Option Char)
  /-- There is no recorded consumption to undo. -/
  | nothingToBackUp
  /-- A name has no characters. -/
  | emptyName
  /-- A string does not start with a quote. -/
  | missingQuote (found : Char)
  /-- The input ends inside a string. -/
  | unterminatedQuote (quote : Char)
  /-- An entity is longer than allowed. -/
  | malformedEscape (body : String)
  /-- A numeric entity does not denote a character. -/
  | invalidNumericEscape (body : String)
  /-- An entity has a name that stands for nothing. -/
  | unknownEntity (body : String)
  /-- A number is no integer of 64 bits. -/
  | invalidInteger (text : String)
  /-- No token starts with the character. -/
  | noToken (found : Char)
  deriving DecidableEq, Repr

namespace LexError

/-- What is told about a failure. -/
def message : LexError → String
  | .endOfInput => "unexpected end of input"
  | .recordingMismatch pushed recorded =>
    "pushed back '" ++ pushed.toString ++
      "' while recording, but the last recorded character was " ++ quotedChar? recorded
  | .nothingToBackUp => "nothing to back up over"
  | .emptyName => "name missing"
  | .missingQuote found => "string value not quoted, found '" ++ found.toString ++ "'"
  | .unterminatedQuote quote => "unterminated string, expected closing " ++ quote.toString
  | .malformedEscape body => "malformed escape '&" ++ body ++ "'"
  | .invalidNumericEscape body => "unexpected numeric sequence after &#: '" ++ body ++ "'"
  | .unknownEntity body => "unknown entity '&" ++ body ++ ";'"
  | .invalidInteger text => "invalid integer '" ++ text ++ "'"
  | .noToken found => "no token starts with '" ++ found.toString ++ "'"

/-- Whether a failure shows a mistake in the use of a stream rather than bad input. -/
def isDefect : LexError → Bool
  | .recordingMismatch .. | .nothingToBackUp | .emptyName | .missingQuote _ => true
  | _ => false

end LexError

/-- A failure together with where it happened. -/
structure LocatedError where
  cause : LexError
  /-- The number of characters consumed before the failure. -/
  position : Nat
  /-- The text recorded for the token that failed. -/
  lexeme : String
  deriving DecidableEq, Repr

/-- What is told about a located failure. -/
def LocatedError.message (e : LocatedError) : String :=
  e.cause.message ++ " at character " ++ toString e.position

end RewindLexer
