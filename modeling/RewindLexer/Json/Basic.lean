/-!
# JSON values

A value keeps apart integers and other numbers, because readers of integers do not take `1.0`.
Objects keep their members in the order they were written.
-/

namespace RewindLexer

/-- A JSON value. -/
inductive Json where
  | null
  | bool (value : Bool)
  /-- A number written without fraction and exponent, other than `-0`. -/
  | int (value : Int)
  /-- Any other number, as it was written. -/
  | real (text : String)
  | str (value : String)
  | arr (items : List Json)
  | obj (members : List (String × Json))
  deriving Repr

namespace Json

/-- The member of an object with a name, if there is one and no other of that name. -/
def member? (members : List (String × Json)) (name : String) : Option Json :=
  match members.filter (·.1 == name) with
  | [m] => some m.2
  | _ => none

/-- The text of a string value. -/
def str? : Json → Option String
  | .str value => some value
  | _ => none

/-- The value of an integer. -/
def int? : Json → Option Int
  | .int value => some value
  | _ => none

/-- The character of a string value that holds just one. -/
def char? : Json → Option Char
  | .str value =>
    match value.toList with
    | [c] => some c
    | _ => none
  | _ => none

end Json

end RewindLexer
