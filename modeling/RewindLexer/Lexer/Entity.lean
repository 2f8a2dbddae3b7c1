import RewindLexer.Error
import RewindLexer.Text.Numeral

/-!
# Entities

An entity stands for a character: `#` and digits for the one with that code point, a name for the
one in a table. The table is sorted by name and searched by halving.
-/

namespace RewindLexer.Entity

open Text

/-- The names of characters, in increasing order. -/
def table : Array (String × Char) := #[
  ("amp", '&'),
  ("apos", '\''),
  ("bull", '\u2022'),
  ("cent", '\u00A2'),
  ("copy", '\u00A9'),
  ("deg", '\u00B0'),
  ("divide", '\u00F7'),
  ("euro", '\u20AC'),
  ("gt", '>'),
  ("hellip", '\u2026'),
  ("iexcl", '\u00A1'),
  ("iquest", '\u00BF'),
  ("laquo", '\u00AB'),
  ("ldquo", '\u201C'),
  ("lsquo", '\u2018'),
  ("lt", '<'),
  ("mdash", '\u2014'),
  ("micro", '\u00B5'),
  ("middot", '\u00B7'),
  ("nbsp", '\u00A0'),
  ("ndash", '\u2013'),
  ("not", '\u00AC'),
  ("para", '\u00B6'),
  ("plusmn", '\u00B1'),
  ("pound", '\u00A3'),
  ("quot", '"'),
  ("raquo", '\u00BB'),
  ("rdquo", '\u201D'),
  ("reg", '\u00AE'),
  ("rsquo", '\u2019'),
  ("sect", '\u00A7'),
  ("shy", '\u00AD'),
  ("times", '\u00D7'),
  ("trade", '\u2122'),
  ("yen", '\u00A5')]

/-- Searches the entries `lo ≤ i < hi` for a name. -/
def search (name : String) (lo hi : Nat) : Option Char :=
  if lo < hi then
    let mid := (lo + hi) / 2
    match table[mid]? with
    | none => none
    | some (key, c) =>
      if name < key then search name lo mid
      else if key < name then search name (mid + 1) hi
      else some c
  else
    none
termination_by hi - lo

/-- The character with a name. -/
def lookup? (name : String) : Option Char :=
  search name 0 table.size

/-- The character with a code point, unless it is a surrogate or too large. -/
def charOfCode? (n : Nat) : Option Char :=
  if n.isValidChar then some (Char.ofNat n) else none

/-- The character that an entity stands for, given what is between `&` and `;`. -/
def decode : List Char → Except LexError Char
  | '#' :: d :: ds =>
    match (Numeral.word? (d :: ds)).bind charOfCode? with
    | some c => .ok c
    | none => .error (.invalidNumericEscape (String.ofList ('#' :: d :: ds)))
  | body =>
    match lookup? (String.ofList body) with
    | some c => .ok c
    | none => .error (.unknownEntity (String.ofList body))

end RewindLexer.Entity
