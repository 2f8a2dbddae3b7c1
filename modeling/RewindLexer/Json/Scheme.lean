import RewindLexer.Json.Basic
import RewindLexer.Text.Numeral

/-!
# Schemes for data as JSON

A scheme says how the declared types of a program become JSON values: strings, characters and
integers, records by the names of their fields, and types of several variants by a tag. The scheme
has to be lawful in what it writes and in what it reads; nothing is asked of it for objects with two
members of one name, and for values of other forms.
-/

namespace RewindLexer.Json

open Text

/-- Values of a type as JSON values, and JSON values as values of the type. -/
structure Codec (α : Type) where
  encode : α → Json
  decode : Json → Option α

/-- Each value is written in a given form and read from it. -/
def Codec.Uses {α : Type} (c : Codec α) (form : α → Json) : Prop :=
  ∀ x, c.encode x = form x ∧ c.decode (form x) = some x

/-- A name of capitalized words in snake case: every capital letter but the first has an underscore
in front, and all letters are small. -/
def snakeCase (name : String) : String :=
  match name.toList with
  | [] => ""
  | c :: cs =>
    String.ofList (c.toLower :: cs.flatMap fun d => if d.isUpper then ['_', d.toLower] else [d])

/-- How declared types become JSON values. Fields are given by their names and values, in the order
of the declaration. -/
structure Scheme where
  string : Codec String
  char : Codec Char
  int64 : Codec Int64
  /-- A record with its fields. -/
  record : List (String × Json) → Json
  /-- The values of the named fields of a record. -/
  fields? : List String → Json → Option (List Json)
  /-- A value of a type with several variants: the tag, the name of the variant and its fields. -/
  tagged : String → String → List (String × Json) → Json
  /-- The variant of a tagged value and the values of its fields, among variants with the names of
  their fields. -/
  variant? : String → List (String × List String) → Json → Option (String × List Json)

/-- Records are objects with a member for each field, and a variant has one more member in front,
the tag, whose value is the name of the variant in snake case. Both are read from objects whatever
the order of the members and whatever other members there are. -/
structure Scheme.Lawful (s : Scheme) : Prop where
  string_uses : s.string.Uses .str
  char_uses : s.char.Uses fun c => .str c.toString
  int64_uses : s.int64.Uses fun n => .int n.toInt
  record_eq (fields : List (String × Json)) : s.record fields = .obj fields
  fields?_obj {members fields : List (String × Json)} :
    (members.map Prod.fst).Nodup → (∀ m ∈ fields, m ∈ members) →
      s.fields? (fields.map Prod.fst) (.obj members) = some (fields.map Prod.snd)
  tagged_eq (tag variant : String) (fields : List (String × Json)) :
    s.tagged tag variant fields = .obj ((tag, .str (snakeCase variant)) :: fields)
  variant?_obj {tag variant : String} {variants : List (String × List String)}
    {members fields : List (String × Json)} :
    (variants.map fun v => snakeCase v.1).Nodup → (variant, fields.map Prod.fst) ∈ variants →
      (members.map Prod.fst).Nodup → (tag, .str (snakeCase variant)) ∈ members →
        (∀ m ∈ fields, m ∈ members) →
          s.variant? tag variants (.obj members) = some (variant, fields.map Prod.snd)

/-! ## A lawful scheme -/

/-- The values of the named fields: members of an object, or the items of an array in order. -/
def fields? (names : List String) : Json → Option (List Json)
  | .obj members => names.mapM (member? members)
  | .arr items => if items.length = names.length then some items else none
  | _ => none

/-- The variant whose name in snake case is given. -/
def findVariant? (variants : List (String × List String)) (kind : Json) :
    Option (String × List String) := do
  let kind ← kind.str?
  variants.find? fun v => snakeCase v.1 == kind

/-- The variant of an object with a tag, or of an array with the name of the variant in front. -/
def variant? (tag : String) (variants : List (String × List String)) :
    Json → Option (String × List Json)
  | .obj members => do
    let (variant, names) ← findVariant? variants (← member? members tag)
    some (variant, ← fields? names (.obj members))
  | .arr (kind :: items) => do
    let (variant, names) ← findVariant? variants kind
    some (variant, ← fields? names (.arr items))
  | _ => none

/-- Objects are written; objects and arrays are read. -/
def scheme : Scheme where
  string := ⟨.str, str?⟩
  char := ⟨fun c => .str c.toString, char?⟩
  int64 := ⟨fun n => .int n.toInt, fun v => v.int?.bind Numeral.int64OfInt?⟩
  record := .obj
  fields? := fields?
  tagged tag variant fields := .obj ((tag, .str (snakeCase variant)) :: fields)
  variant? := variant?

end RewindLexer.Json
