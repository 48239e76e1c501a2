import SpatialSql.Json.Number

/-!
# Records and variants in JSON

A record is an object, where unknown keys are ignored and a known key may not be
repeated, or an array of the leading fields in order. A variant is an object with
one key; one without content may also be given by its name alone.
-/

namespace SpatialSql.Json

/-- The text behind a value. -/
def text? : Json → Option String
  | string text? => text?
  | _ => none

/-- The truth value behind a value. -/
def bool? : Json → Option Bool
  | bool value => some value
  | _ => none

/-- The items of an array. -/
def items : Json → Option (List Json)
  | array items => some items
  | _ => none

/-- Applies a reader to every item of an array. -/
def listOf? {β : Type} (read? : Json → Option β) : Json → Option (List β)
  | array items => items.mapM read?
  | _ => none

/-- A value that may be null. -/
def nullable? {β : Type} (read? : Json → Option β) : Json → Option (Option β)
  | null => some none
  | value => (read? value).map some

/-- The values of the members with a given key. -/
def valuesOf (key : String) (members : List (Option String × Json)) : List Json :=
  members.filterMap fun (k, value) => if k = some key then some value else none

/-- The value of a field that may be missing; nothing when the key is repeated. -/
def field? (members : List (Option String × Json)) (key : String) : Option (Option Json) :=
  match valuesOf key members with
  | [] => some none
  | [value] => some (some value)
  | _ => none

/-- The values of the fields of a record, in order; a missing one stays empty. -/
def fields? (names : List String) : Json → Option (List (Option Json))
  | object members =>
    if members.all fun (key, _) => key.isSome then names.mapM (field? members) else none
  | array items =>
    if items.length ≤ names.length then
      some (items.map some ++ List.replicate (names.length - items.length) none)
    else none
  | _ => none

/-- The name and the content of a variant. -/
def variant? : Json → Option (String × Json)
  | object [(some name, content)] => some (name, content)
  | _ => none

/-- The name of a variant without content. -/
def unitVariant? : Json → Option String
  | string text? => text?
  | object [(some name, null)] => some name
  | _ => none

end SpatialSql.Json
