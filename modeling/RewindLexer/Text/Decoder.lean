/-!
# Decoders of UTF-8

A decoder turns bytes into characters. What it is to do is said here by means of the encoding of
one character: bytes that start with an encoded character give that character. Other bytes give the
replacement character, once for as many bytes in front as could be the start of an encoding, and for
one byte if there are none.
-/

namespace RewindLexer.Text.Utf8

/-- The character that stands for bytes that encode none. -/
def replacement : Char := '\uFFFD'

/-- The encoding of some character begins with the bytes. -/
def Begins (bytes : List UInt8) : Prop :=
  ∃ c, bytes <+: String.utf8EncodeChar c

/-- The bytes start with no character. The first `size` of them are the most with which an encoding
begins, or are a single byte. -/
structure Broken (bytes : List UInt8) (size : Nat) : Prop where
  not_char (c : Char) : ¬String.utf8EncodeChar c <+: bytes
  pos : 0 < size
  le : size ≤ bytes.length
  begins : size = 1 ∨ Begins (bytes.take size)
  most {n : Nat} : size < n → n ≤ bytes.length → ¬Begins (bytes.take n)

/-- What bytes start with: a character and the size of its encoding, or no character and the size of
what takes its place. -/
inductive StartsWith (bytes : List UInt8) : Option Char × Nat → Prop where
  | char {c : Char} (h : String.utf8EncodeChar c <+: bytes) :
    StartsWith bytes (some c, (String.utf8EncodeChar c).length)
  | broken {size : Nat} (h : Broken bytes size) : StartsWith bytes (none, size)

/-- The characters that bytes stand for. -/
inductive StandsFor : List UInt8 → List Char → Prop where
  | nil : StandsFor [] []
  | cons {bytes : List UInt8} {first : Option Char × Nat} {text : List Char}
    (h : StartsWith bytes first) (htext : StandsFor (bytes.drop first.2) text) :
    StandsFor bytes (first.1.getD replacement :: text)

/-- A decoder, of one character and of all. It takes at least one byte off, and no more than there
are. -/
structure Decoder where
  /-- The character with which the bytes start, if any, and the number of bytes to take off. -/
  first : List UInt8 → Option Char × Nat
  /-- The characters of the bytes. -/
  all : List UInt8 → List Char
  size_pos {bytes : List UInt8} : bytes ≠ [] → 0 < (first bytes).2
  size_le {bytes : List UInt8} : bytes ≠ [] → (first bytes).2 ≤ bytes.length

namespace Decoder

/-- The decoder takes off what the bytes start with. -/
def TakesFirst (d : Decoder) : Prop :=
  ∀ bytes, bytes ≠ [] → StartsWith bytes (d.first bytes)

/-- The decoder gives the characters that the bytes stand for. -/
def DecodesAll (d : Decoder) : Prop :=
  ∀ bytes, StandsFor bytes (d.all bytes)

end Decoder

end RewindLexer.Text.Utf8
