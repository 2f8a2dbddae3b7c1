import RewindLexer.Json.Scheme
import RewindLexer.Json.Printer
import RewindLexer.Json.Parser
import RewindLexer.Token.Basic

/-!
# Tokens as JSON

A token is a record of its text and its meaning. The meaning is one of several variants, each with
its fields; the tag that tells them apart is the kind.
-/

namespace RewindLexer

namespace TokenValue

/-- The kinds of meanings with the names of their fields. -/
def variants : List (String × List String) :=
  [("Name", ["value"]), ("String", ["value", "quote"]), ("Integer", ["value"]),
    ("Char", ["value"]), ("Symbol", ["value"]), ("EndOfFile", [])]

/-- The variant that a meaning is, and its fields. -/
def fields (s : Json.Scheme) : TokenValue → String × List (String × Json)
  | .name value => ("Name", [("value", s.string.encode value)])
  | .string value quote =>
    ("String", [("value", s.string.encode value), ("quote", s.char.encode quote)])
  | .integer value => ("Integer", [("value", s.int64.encode value)])
  | .char value => ("Char", [("value", s.string.encode value)])
  | .symbol value => ("Symbol", [("value", s.string.encode value)])
  | .endOfFile => ("EndOfFile", [])

/-- The meaning that is a variant with the values of its fields. -/
def ofFields? (s : Json.Scheme) : String × List Json → Option TokenValue
  | ("Name", [value]) => (s.string.decode value).map .name
  | ("String", [value, quote]) => do
    some (.string (← s.string.decode value) (← s.char.decode quote))
  | ("Integer", [value]) => (s.int64.decode value).map .integer
  | ("Char", [value]) => (s.string.decode value).map .char
  | ("Symbol", [value]) => (s.string.decode value).map .symbol
  | ("EndOfFile", []) => some .endOfFile
  | _ => none

/-- The meaning of a token as a JSON value. -/
def toJson (value : TokenValue) (s : Json.Scheme := Json.scheme) : Json :=
  s.tagged "kind" (value.fields s).1 (value.fields s).2

/-- Reads a meaning from a JSON value. -/
def ofJson? (v : Json) (s : Json.Scheme := Json.scheme) : Option TokenValue :=
  (s.variant? "kind" variants v).bind (ofFields? s)

end TokenValue

namespace Token

/-- A token as a JSON value. -/
def toJson (t : Token) (s : Json.Scheme := Json.scheme) : Json :=
  s.record [("original", s.string.encode t.lexeme), ("value", t.value.toJson s)]

/-- Reads a token from a JSON value. -/
def ofJson? (v : Json) (s : Json.Scheme := Json.scheme) : Option Token := do
  match ← s.fields? ["original", "value"] v with
  | [lexeme, value] => some ⟨← s.string.decode lexeme, ← TokenValue.ofJson? value s⟩
  | _ => none

end Token

end RewindLexer
