/-!
# Decimal numerals

A numeral is an optional sign and at least one decimal digit; only the digits `0` to `9` count.
Reading fails outside the range that the result can hold.
-/

namespace RewindLexer.Text.Numeral

/-- Whether a character is one of `0` to `9`. -/
def isDigit (c : Char) : Bool :=
  '0' ≤ c && c ≤ '9'

/-- The number that a digit denotes. -/
def digitValue (c : Char) : Nat :=
  c.toNat - '0'.toNat

/-- The number that a row of digits denotes. -/
def value (digits : List Char) : Nat :=
  digits.foldl (fun n c => n * 10 + digitValue c) 0

/-- Reads a row of digits, which must not be empty. -/
def digits? (text : List Char) : Option Nat :=
  if !text.isEmpty && text.all isDigit then some (value text) else none

/-- Reads digits after an optional plus sign. -/
def natural? : List Char → Option Nat
  | '+' :: text => digits? text
  | text => digits? text

/-- Reads digits after an optional sign. -/
def integer? : List Char → Option Int
  | '-' :: text => (digits? text).map fun n => -(n : Int)
  | text => (natural? text).map Int.ofNat

/-- Reads a natural number of 32 bits. -/
def word? (text : List Char) : Option Nat :=
  (natural? text).filter (· < UInt32.size)

/-- The integer as a signed number of 64 bits, if it is in their range. -/
def int64OfInt? (n : Int) : Option Int64 :=
  if Int64.minValue.toInt ≤ n ∧ n ≤ Int64.maxValue.toInt then some (Int64.ofInt n) else none

/-- Reads a signed number of 64 bits. -/
def int64? (text : List Char) : Option Int64 :=
  (integer? text).bind int64OfInt?

end RewindLexer.Text.Numeral
