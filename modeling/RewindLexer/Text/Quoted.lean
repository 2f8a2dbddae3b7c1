import RewindLexer.Text.Printable

/-!
# Quoted characters and texts

The form in which a character or a text is shown to a reader of messages: in quotes, with a
backslash before what would be misread, and with the code point of what cannot be seen.
-/

namespace RewindLexer.Text

/-- The code point of a character in lower-case hexadecimal digits, without leading zeros. -/
def hexCode (c : Char) : String :=
  String.ofList (Nat.toDigits 16 c.toNat)

/-- A character as it stands inside the given quotes. -/
def escaped (quote c : Char) : String :=
  if c = '\x00' then "\\0"
  else if c = '\t' then "\\t"
  else if c = '\r' then "\\r"
  else if c = '\n' then "\\n"
  else if c = '\\' ∨ c = quote then String.ofList ['\\', c]
  else if isPrintable c then String.singleton c
  else "\\u\x7b" ++ hexCode c ++ "\x7d"

/-- A character in single quotes. -/
def quotedChar (c : Char) : String :=
  "'" ++ escaped '\'' c ++ "'"

/-- A text in double quotes. -/
def quotedText (text : List Char) : String :=
  "\"" ++ String.join (text.map (escaped '"')) ++ "\""

/-- A character that may be missing. -/
def quotedChar? : Option Char → String
  | none => "None"
  | some c => "Some(" ++ quotedChar c ++ ")"

end RewindLexer.Text
