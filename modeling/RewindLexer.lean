import RewindLexer.Error
import RewindLexer.Json.Basic
import RewindLexer.Json.Format
import RewindLexer.Json.Parser
import RewindLexer.Json.Printer
import RewindLexer.Json.Scheme
import RewindLexer.Lexer.Alphabet
import RewindLexer.Lexer.Basic
import RewindLexer.Lexer.Entity
import RewindLexer.Lexer.Gather
import RewindLexer.Lexer.Options
import RewindLexer.Lexer.Quotation
import RewindLexer.Lexer.Reference
import RewindLexer.Lexer.Runs
import RewindLexer.Lexer.Scan
import RewindLexer.Lexer.Trivia
import RewindLexer.Lookahead
import RewindLexer.Ring.Basic
import RewindLexer.Ring.Cursor
import RewindLexer.Ring.Walk
import RewindLexer.Ring.WellFormed
import RewindLexer.Source.Basic
import RewindLexer.Source.ByteReader
import RewindLexer.Stream.Basic
import RewindLexer.Stream.Finite
import RewindLexer.Stream.Misreporting
import RewindLexer.Stream.Tape
import RewindLexer.Tape
import RewindLexer.Text.Alphabetic
import RewindLexer.Text.Blank
import RewindLexer.Text.Decoder
import RewindLexer.Text.Numeral
import RewindLexer.Text.Numeric
import RewindLexer.Text.Printable
import RewindLexer.Text.Quoted
import RewindLexer.Text.Ranges
import RewindLexer.Text.Utf8
import RewindLexer.Token.Basic
import RewindLexer.Token.Builder
import RewindLexer.Token.Json
import RewindLexer.Proofs.Ring.Contents
import RewindLexer.Proofs.Ring.Ends
import RewindLexer.Proofs.Ring.Shift
import RewindLexer.Proofs.Ring.Passes
import RewindLexer.Proofs.Ring.Walks
import RewindLexer.Proofs.Ring.Filtering
import RewindLexer.Proofs.Ring.ListModel
import RewindLexer.Proofs.Ring.Checked
import RewindLexer.Proofs.Ring.Representation
import RewindLexer.Proofs.Ring.Cursors
import RewindLexer.Proofs.Ring.Capacity
import RewindLexer.Proofs.Ring.Sides
import RewindLexer.Proofs.Lookahead.Moves
import RewindLexer.Proofs.Lookahead.Sequence
import RewindLexer.Proofs.Lookahead.View
import RewindLexer.Proofs.Lookahead.Pulls
import RewindLexer.Proofs.Tape.Took
import RewindLexer.Proofs.Lexer.Trivia
import RewindLexer.Proofs.Lexer.Strings
import RewindLexer.Proofs.Lexer.Tokens
import RewindLexer.Proofs.Lexer.Reads
import RewindLexer.Proofs.Lexer.Locality
import RewindLexer.Proofs.Lexer.Calls
import RewindLexer.Proofs.Lexer.Drivers
import RewindLexer.Proofs.Lexer.Composition
import RewindLexer.Proofs.Lexer.Lossless
import RewindLexer.Proofs.Text.Decoder
import RewindLexer.Proofs.Text.Utf8
import RewindLexer.Proofs.Source.Arrival
import RewindLexer.Proofs.Source.Reading
import RewindLexer.Proofs.Lexer.Entities
import RewindLexer.Proofs.Lexer.Quotations
import RewindLexer.Proofs.Lexer.BrokenStrings
import RewindLexer.Proofs.Tape.Window
import RewindLexer.Proofs.Tape.Resemblance
import RewindLexer.Proofs.Tape.Undo
import RewindLexer.Proofs.Stream.Alike
import RewindLexer.Proofs.Stream.Excerpt
import RewindLexer.Proofs.Stream.Obliging
import RewindLexer.Proofs.Lexer.Capped
import RewindLexer.Proofs.Lexer.Faults
import RewindLexer.Proofs.Lexer.Requests
import RewindLexer.Proofs.Lexer.ReadAhead
import RewindLexer.Proofs.Lexer.Iteration
import RewindLexer.Proofs.Lexer.Sources
import RewindLexer.Proofs.Lexer.Builders
import RewindLexer.Proofs.Lexer.Progress
import RewindLexer.Proofs.Text.Numeral
import RewindLexer.Proofs.Lexer.Symbols
import RewindLexer.Proofs.Lexer.Integers
import RewindLexer.Proofs.Lexer.Spelling
import RewindLexer.Proofs.Lexer.EntityLimit
import RewindLexer.Proofs.Lexer.WithoutSymbols
import RewindLexer.Proofs.Json.Writing
import RewindLexer.Proofs.Json.Reading
import RewindLexer.Proofs.Json.Scheme
import RewindLexer.Proofs.Json.Tokens
