import RewindLexer.Text.Alphabetic
import RewindLexer.Text.Blank
import RewindLexer.Text.Numeral
import RewindLexer.Text.Numeric

/-!
# The alphabet of the lexer

Which characters names, separators and symbols are made of.
-/

namespace RewindLexer

open Text

/-- Whether a character opens and closes strings. -/
def isQuote (c : Char) : Bool :=
  c = '"' || c = '\''

/-- Whether a character may stand in a name. -/
def isNameChar (c : Char) : Bool :=
  isAlphabetic c || isNumeric c || c = '-' || c = '.'

/-- The characters that are a token each. -/
def separators : List Char :=
  ['(', ')', '[', ']', '\x7b', '\x7d', ',', ';']

/-- Whether a character is a token of its own. -/
def isSeparator (c : Char) : Bool :=
  separators.contains c

/-- Whether a character is punctuation of the ASCII range. -/
def isPunctuation (c : Char) : Bool :=
  '!' ≤ c && c ≤ '/' || ':' ≤ c && c ≤ '@' || '[' ≤ c && c ≤ '`' || '\x7b' ≤ c && c ≤ '~'

/-- Whether a character runs together with its like into one symbol. -/
def isSign (c : Char) : Bool :=
  isPunctuation c && !isSeparator c && !isQuote c && c ≠ '\\' && c ≠ '#' && c ≠ '-'

end RewindLexer
