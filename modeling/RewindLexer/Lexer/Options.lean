/-!
# Options of a lexer
-/

namespace RewindLexer

/-- What a lexer accepts, and how it fails. -/
structure Options where
  /-- The greatest number of characters between the `&` and the `;` of an entity. -/
  maxEntityLength : Nat := 32
  /-- Whether punctuation makes tokens. Otherwise only names, strings and integers do. -/
  emitSymbols : Bool := true
  /-- Whether an error ends the run instead of being reported. -/
  abortOnError : Bool := false
  deriving DecidableEq, Repr

end RewindLexer
