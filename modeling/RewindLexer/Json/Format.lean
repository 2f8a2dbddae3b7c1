import RewindLexer.Json.Parser
import RewindLexer.Json.Printer

/-!
# JSON texts

The grammar of JSON, which says for each text the value that it denotes, and what is asked of a
writer and of a reader. The writer leaves out blanks and escapes no more characters than it has to.
The reader takes every text of the grammar, but it may have limits: nothing is asked of it for
numbers other than integers of 64 bits, for objects with two members of one name, and for values
nested too deeply.
-/

namespace RewindLexer.Json

open Text

/-! ## Strings -/

/-- The hexadecimal digits, each with its value. -/
def hexDigits : List (Char × Nat) :=
  [('0', 0), ('1', 1), ('2', 2), ('3', 3), ('4', 4), ('5', 5), ('6', 6), ('7', 7), ('8', 8),
    ('9', 9), ('a', 10), ('b', 11), ('c', 12), ('d', 13), ('e', 14), ('f', 15), ('A', 10),
    ('B', 11), ('C', 12), ('D', 13), ('E', 14), ('F', 15)]

/-- Four hexadecimal digits and the number that they denote. -/
inductive DenotesUnit : List Char → Nat → Prop where
  | digits {a b c d : Char} {i j k l : Nat} (ha : (a, i) ∈ hexDigits) (hb : (b, j) ∈ hexDigits)
    (hc : (c, k) ∈ hexDigits) (hd : (d, l) ∈ hexDigits) :
    DenotesUnit [a, b, c, d] (((i * 16 + j) * 16 + k) * 16 + l)

/-- The characters that are written as a backslash and a letter, each with its letter. -/
def shortEscapes : List (Char × Char) :=
  [('"', '"'), ('\\', '\\'), ('\x08', 'b'), ('\t', 't'), ('\n', 'n'), ('\x0c', 'f'), ('\r', 'r')]

/-- One character of a string: as it is, as a backslash and a letter, by its number, or by the two
halves of a surrogate pair. -/
inductive DenotesChar : List Char → Char → Prop where
  | plain {c : Char} (hc : 0x20 ≤ c.toNat) (hquote : c ≠ '"') (hslash : c ≠ '\\') :
    DenotesChar [c] c
  | short {c d : Char} (h : (c, d) ∈ ('/', '/') :: shortEscapes) : DenotesChar ['\\', d] c
  | code {s : List Char} {c : Char} (h : DenotesUnit s c.toNat) : DenotesChar ('\\' :: 'u' :: s) c
  | pair {s t : List Char} {high low : Nat} {c : Char} (hs : DenotesUnit s (0xD800 + high))
    (ht : DenotesUnit t (0xDC00 + low)) (hhigh : high < 0x400) (hlow : low < 0x400)
    (hc : c.toNat = 0x10000 + high * 0x400 + low) :
    DenotesChar ('\\' :: 'u' :: (s ++ '\\' :: 'u' :: t)) c

/-- A string with its quotes. -/
inductive DenotesString : List Char → String → Prop where
  | quoted {chars : List (List Char × Char)} (h : ∀ p ∈ chars, DenotesChar p.1 p.2) :
    DenotesString ('"' :: (chars.flatMap Prod.fst ++ ['"'])) (String.ofList (chars.map Prod.snd))

/-! ## Numbers -/

/-- The digits of a number before its point. -/
inductive WholeForm : List Char → Prop where
  | zero : WholeForm ['0']
  | digits {d : Char} {ds : List Char} (hd : d ≠ '0')
    (h : ∀ c ∈ d :: ds, Numeral.isDigit c = true) : WholeForm (d :: ds)

inductive FractionForm : List Char → Prop where
  | none : FractionForm []
  | point {ds : List Char} (hne : ds ≠ []) (h : ∀ c ∈ ds, Numeral.isDigit c = true) :
    FractionForm ('.' :: ds)

inductive ExponentForm : List Char → Prop where
  | none : ExponentForm []
  | power {e : Char} {sign ds : List Char} (he : e = 'e' ∨ e = 'E')
    (hsign : sign ∈ [[], ['+'], ['-']]) (hne : ds ≠ [])
    (h : ∀ c ∈ ds, Numeral.isDigit c = true) : ExponentForm (e :: (sign ++ ds))

/-! ## Values -/

/-- Blanks between the parts of a text. -/
def Blanks (s : List Char) : Prop :=
  ∀ c ∈ s, c ∈ [' ', '\t', '\n', '\r']

/-- The name of a member through its colon. -/
inductive DenotesName : List Char → String → Prop where
  | padded {before s after : List Char} {name : String} (hbefore : Blanks before)
    (h : DenotesString s name) (hafter : Blanks after) :
    DenotesName (before ++ (s ++ (after ++ [':']))) name

mutual

/-- A text without blanks around it and the value that it denotes. -/
inductive Denotes : List Char → Json → Prop where
  | null : Denotes "null".toList .null
  | bool (b : Bool) : Denotes (toString b).toList (.bool b)
  | natural {ds : List Char} (h : WholeForm ds) : Denotes ds (.int (Numeral.value ds))
  | negative {ds : List Char} (h : WholeForm ds) (hzero : ds ≠ ['0']) :
    Denotes ('-' :: ds) (.int (-Numeral.value ds))
  | real {sign whole fraction exponent : List Char} (hsign : sign ∈ [[], ['-']])
    (hwhole : WholeForm whole) (hfraction : FractionForm fraction)
    (hexponent : ExponentForm exponent)
    (h : sign ++ whole = ['-', '0'] ∨ fraction ++ exponent ≠ []) :
    Denotes (sign ++ whole ++ fraction ++ exponent)
      (.real (String.ofList (sign ++ whole ++ fraction ++ exponent)))
  | string {s : List Char} {value : String} (h : DenotesString s value) : Denotes s (.str value)
  | emptyArr {blanks : List Char} (h : Blanks blanks) : Denotes ('[' :: (blanks ++ [']'])) (.arr [])
  | arr {s : List Char} {items : List Json} (h : DenotesItems s items) :
    Denotes ('[' :: s) (.arr items)
  | emptyObj {blanks : List Char} (h : Blanks blanks) :
    Denotes ('\x7b' :: (blanks ++ ['\x7d'])) (.obj [])
  | obj {s : List Char} {members : List (String × Json)} (h : DenotesMembers s members) :
    Denotes ('\x7b' :: s) (.obj members)

/-- The items of an array through its closing bracket. -/
inductive DenotesItems : List Char → List Json → Prop where
  | last {before s after : List Char} {v : Json} (hbefore : Blanks before) (h : Denotes s v)
    (hafter : Blanks after) : DenotesItems (before ++ (s ++ (after ++ [']']))) [v]
  | more {before s after rest : List Char} {v : Json} {items : List Json} (hbefore : Blanks before)
    (h : Denotes s v) (hafter : Blanks after) (hrest : DenotesItems rest items) :
    DenotesItems (before ++ (s ++ (after ++ ',' :: rest))) (v :: items)

/-- The members of an object through its closing brace. -/
inductive DenotesMembers : List Char → List (String × Json) → Prop where
  | last {n before s after : List Char} {name : String} {v : Json} (hname : DenotesName n name)
    (hbefore : Blanks before) (h : Denotes s v) (hafter : Blanks after) :
    DenotesMembers (n ++ (before ++ (s ++ (after ++ ['\x7d'])))) [(name, v)]
  | more {n before s after rest : List Char} {name : String} {v : Json}
    {members : List (String × Json)} (hname : DenotesName n name) (hbefore : Blanks before)
    (h : Denotes s v) (hafter : Blanks after) (hrest : DenotesMembers rest members) :
    DenotesMembers (n ++ (before ++ (s ++ (after ++ ',' :: rest)))) ((name, v) :: members)

end

/-- A whole text and the value that it denotes. -/
inductive TextOf : String → Json → Prop where
  | padded {before s after : List Char} {v : Json} (hbefore : Blanks before) (h : Denotes s v)
    (hafter : Blanks after) : TextOf (String.ofList (before ++ (s ++ after))) v

/-- The text is JSON. -/
def WellFormed (text : String) : Prop :=
  ∃ v, TextOf text v

/-! ## Writers and readers -/

/-- A value that any reader takes: its numbers are integers of 64 bits, signed or not, its objects
have no two members of one name, and it is nested no deeper than a bound. -/
inductive Portable : Nat → Json → Prop where
  | null {depth : Nat} : Portable depth .null
  | bool {depth : Nat} {b : Bool} : Portable depth (.bool b)
  | int {depth : Nat} {n : Int} (hlow : Int64.minValue.toInt ≤ n) (hhigh : n < UInt64.size) :
    Portable depth (.int n)
  | str {depth : Nat} {s : String} : Portable depth (.str s)
  | arr {depth : Nat} {items : List Json} (h : ∀ v ∈ items, Portable depth v) :
    Portable (depth + 1) (.arr items)
  | obj {depth : Nat} {members : List (String × Json)} (hnames : (members.map Prod.fst).Nodup)
    (h : ∀ m ∈ members, Portable depth m.2) : Portable (depth + 1) (.obj members)

/-- A writer of values as texts and a reader of texts. -/
structure Format where
  write : Json → String
  read : String → Option Json

namespace Format

/-- The characters that the writer gives for a value. -/
def chars (f : Format) (v : Json) : List Char :=
  (f.write v).toList

/-- The writer puts no blanks between the parts of a value. In strings, it writes an escape for the
quote, the backslash and the control characters only. -/
structure Writes (f : Format) : Prop where
  null : f.chars .null = "null".toList
  bool (b : Bool) : f.chars (.bool b) = (toString b).toList
  int (n : Int) : f.chars (.int n) = (toString n).toList
  str (s : String) : f.chars (.str s) = '"' :: (s.toList.flatMap escape ++ ['"'])
  arr (items : List Json) :
    f.chars (.arr items) = '[' :: ([','].intercalate (items.map f.chars) ++ [']'])
  obj (members : List (String × Json)) :
    f.chars (.obj members) =
      '\x7b' :: ([','].intercalate
        (members.map fun m => f.chars (.str m.1) ++ ':' :: f.chars m.2) ++ ['\x7d'])

/-- The reader gives the value of every text that denotes one within its limits. -/
def Reads (f : Format) : Prop :=
  ∀ text v, TextOf text v → Portable 127 v → f.read text = some v

end Format

/-- The writer and the reader of this library. -/
def format : Format :=
  ⟨render, parse?⟩

end RewindLexer.Json
