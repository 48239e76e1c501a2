import SpatialSql.Decimal.Layout
import SpatialSql.Decimal.Numeral

/-!
# JSON values

Numbers keep their numeral as written, and a string whose escapes name no text (a
surrogate that stands alone) is kept as such, so that a document may hold parts that
nobody reads. Printing is compact.
-/

namespace SpatialSql

/-- A JSON value. -/
inductive Json where
  | null
  | bool (value : Bool)
  /-- A number, by its numeral. -/
  | number (numeral : String)
  /-- A string, if its escapes name a text. -/
  | string (text? : Option String)
  | array (items : List Json)
  /-- The members in order of appearance, repeated keys included. -/
  | object (members : List (Option String × Json))

namespace Json

/-- A string value. -/
def text (value : String) : Json := string (some value)

/-- A whole number. -/
def int (value : Int) : Json := number (toString value)

/-- A double; the special values have no numeral and become null. -/
def float (value : Float) : Json :=
  match Decimal.Reading.of value with
  | .finite _ => number (Decimal.json.text value)
  | _ => null

/-- An object with distinct keys. -/
def record (members : List (String × Json)) : Json :=
  object (members.map fun (key, value) => (some key, value))

/-- An optional value, null when it is missing. -/
def optional {β : Type} (encode : β → Json) : Option β → Json
  | some value => encode value
  | none => null

/-- The escape of a character inside a string. -/
def escaped (c : Char) : List Char :=
  match c with
  | '"' => ['\\', '"']
  | '\\' => ['\\', '\\']
  | '\n' => ['\\', 'n']
  | '\r' => ['\\', 'r']
  | '\t' => ['\\', 't']
  | c =>
    if c.toNat = 0x8 then ['\\', 'b']
    else if c.toNat = 0xC then ['\\', 'f']
    else if c.toNat < 0x20 then
      '\\' :: 'u' :: '0' :: '0' :: [Nat.digitChar (c.toNat / 16), Nat.digitChar (c.toNat % 16)]
    else [c]

/-- A text in quotes. -/
def quoted (text : String) : String :=
  String.ofList ('"' :: text.toList.flatMap escaped ++ ['"'])

mutual

/-- The compact text of a value. -/
def render : Json → String
  | null => "null"
  | bool value => if value then "true" else "false"
  | number numeral => numeral
  | string text? => quoted (text?.getD "")
  | array items => "[" ++ String.intercalate "," (renderItems items) ++ "]"
  | object members => "\x7b" ++ String.intercalate "," (renderMembers members) ++ "\x7d"

/-- The compact texts of the items of an array. -/
def renderItems : List Json → List String
  | [] => []
  | item :: rest => render item :: renderItems rest

/-- The compact texts of the members of an object. -/
def renderMembers : List (Option String × Json) → List String
  | [] => []
  | (key, value) :: rest => (quoted (key.getD "") ++ ":" ++ render value) :: renderMembers rest

end

end Json

end SpatialSql
