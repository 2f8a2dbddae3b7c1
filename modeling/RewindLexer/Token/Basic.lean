/-!
# Tokens

A token is the text it was scanned from together with what that text means.
-/

namespace RewindLexer

/-- What a token means. -/
inductive TokenValue where
  | name (value : String)
  /-- A quoted string: its decoded text and its quote. -/
  | string (value : String) (quote : Char)
  | integer (value : Int64)
  /-- A bracket, a comma or a semicolon. -/
  | char (value : String)
  /-- A run of sign characters. -/
  | symbol (value : String)
  | endOfFile
  deriving DecidableEq, Repr

/-- A token with the text that it was scanned from. -/
structure Token where
  lexeme : String
  value : TokenValue
  deriving DecidableEq, Repr

namespace Token

/-- Whether a token marks the end of the input. -/
def isEndOfFile (t : Token) : Bool :=
  match t.value with
  | .endOfFile => true
  | _ => false

/-- The kind of a token and its meaning in words. -/
def describe (t : Token) : String :=
  match t.value with
  | .name value => "name " ++ value
  | .string value quote => "string " ++ quote.toString ++ value ++ quote.toString
  | .integer value => "integer " ++ toString value.toInt
  | .char value => "char " ++ value
  | .symbol value => "symbol " ++ value
  | .endOfFile => "end of file"

end Token

end RewindLexer
