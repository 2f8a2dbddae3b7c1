import RewindLexer.Token.Basic

/-!
# Token builders

A lexer decides what kind of token it has seen and leaves it to a builder to make the token. Each
part of a builder takes the text that the token was scanned from and its decoded meaning.
-/

namespace RewindLexer

/-- How tokens are made, and which of them end the input. -/
structure TokenBuilder (τ : Type) where
  name (lexeme value : String) : τ
  string (lexeme value : String) (quote : Char) : τ
  integer (lexeme : String) (value : Int64) : τ
  char (lexeme value : String) : τ
  symbol (lexeme value : String) : τ
  endOfFile : τ
  /-- Whether a token ends the input. -/
  isEndOfFile : τ → Bool
  /-- The token made at the end of the input does end it. -/
  isEndOfFile_endOfFile : isEndOfFile endOfFile = true

/-- Makes plain tokens. -/
def Token.builder : TokenBuilder Token where
  name lexeme value := ⟨lexeme, .name value⟩
  string lexeme value quote := ⟨lexeme, .string value quote⟩
  integer lexeme value := ⟨lexeme, .integer value⟩
  char lexeme value := ⟨lexeme, .char value⟩
  symbol lexeme value := ⟨lexeme, .symbol value⟩
  endOfFile := ⟨"", .endOfFile⟩
  isEndOfFile := Token.isEndOfFile
  isEndOfFile_endOfFile := rfl

/-- Takes the given tokens for the end of the input too. -/
def TokenBuilder.endingAt {τ : Type} (b : TokenBuilder τ) (ends : τ → Bool) : TokenBuilder τ :=
  { b with
    isEndOfFile := fun t => b.isEndOfFile t || ends t
    isEndOfFile_endOfFile := by simp [b.isEndOfFile_endOfFile] }

end RewindLexer
