import SpatialSql.Dialect.Renderer

/-!
# SQLite

Geometries are stored as well-known text. No spatial function is available, so
every spatial operator is declined.
-/

namespace SpatialSql.Dialect.Sqlite

variable {α : Type} [Numeral α]

/-- The number at a position of a well-known text, by turning its coordinates into a JSON array. The
text has to be written with single spaces. -/
def ordinate (text : String) (index : UInt32) : String :=
  let tag := "'ABCDEFGHIJKLMNOPQRSTUVWXYZabcdefghijklmnopqrstuvwxyz ('"
  let numbers := "REPLACE(REPLACE(TRIM(REPLACE(REPLACE(LTRIM(" ++ text ++ ", " ++ tag ++
    "), '(', ''), ')', '')), ', ', ','), ' ', ',')"
  "CAST(json_extract('[' || " ++ numbers ++ " || ']', '$[" ++ toString index.toNat ++ "]') AS REAL)"

/-- The spelling of text primitives in SQLite. -/
def textForms : TextForms where
  position needle text := call "INSTR" [text, needle]
  substring text start length? := call "SUBSTR" ([text, start] ++ length?.toList)
  toNumber text := "CAST(" ++ text ++ " AS REAL)"

/-- The renderer of SQLite. A number is printed like in well-known text, so whole numbers have no
fraction. -/
def renderer : Renderer α where
  toTextForms := textForms
  name := "sqlite"
  number := Numeral.text
  boolean value := if value then "1" else "0"
  ordinate := ordinate
  toText number := "PRINTF('%.15g', " ++ number ++ ")"
  least a b := call "MIN" [a, b]
  greatest a b := call "MAX" [a, b]

end SpatialSql.Dialect.Sqlite
