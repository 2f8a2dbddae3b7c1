import RewindLexer.Text.Ranges

/-!
# Blanks

The characters with the Unicode property `White_Space`, and those of them at which a line may be
broken: a no-break space does not separate words.
-/

namespace RewindLexer.Text

/-- The code points with the property `White_Space`. -/
def whiteSpaceRanges : Ranges where
  intervals :=
    [(0x9, 0xD), (0x20, 0x20), (0x85, 0x85), (0xA0, 0xA0), (0x1680, 0x1680), (0x2000, 0x200A),
     (0x2028, 0x2029), (0x202F, 0x202F), (0x205F, 0x205F), (0x3000, 0x3000)]
  increasing := by decide +kernel

/-- The spaces at which a line may not be broken. -/
def noBreakSpaces : List Char :=
  ['\u00A0', '\u2007', '\u202F']

/-- Whether a character separates words: white space, but no no-break space. -/
def isBlank (c : Char) : Bool :=
  whiteSpaceRanges.contains c.toNat && !noBreakSpaces.contains c

end RewindLexer.Text
