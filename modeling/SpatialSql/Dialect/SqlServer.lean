import SpatialSql.Dialect.Renderer

/-!
# SQL Server

Spatial operators are methods of the `geometry` type, and predicates among them
give a bit that has to be compared.
-/

namespace SpatialSql.Dialect.SqlServer

variable {α : Type} [Numeral α]

/-- A method of the first operand, with the others as arguments. -/
def method (name : String) : List String → Option String
  | [] => none
  | receiver :: args => some (receiver ++ "." ++ call name args)

/-- A property of the first operand. -/
def property (name : String) : List String → Option String
  | [] => none
  | receiver :: _ => some (receiver ++ "." ++ name)

/-- A method on exactly two operands whose bit is compared with the given one. -/
def predicate (name bit : String) : List String → Option String
  | [a, b] => some ("(" ++ a ++ "." ++ call name [b] ++ " = " ++ bit ++ ")")
  | _ => none

/-- One bound of a geometry: a coordinate of a point, or of a corner of the envelope. -/
def bound (kind : GeometryKind) (op : SpatialOp) (g : String) : String :=
  let coordinate :=
    match op with
    | .minX | .maxX => "STX"
    | _ => "STY"
  let corner :=
    match op with
    | .minX | .minY => "1"
    | _ => "3"
  if kind = .point then g ++ "." ++ coordinate
  else g ++ ".STEnvelope().STPointN(" ++ corner ++ ")." ++ coordinate

/-- The native form of a construction; only points have one. -/
def construct (kind : GeometryKind) (args : List String) : Option String :=
  match kind, args with
  | .point, [x, y] => some (call "geometry::Point" [x, y, "0"])
  | _, _ => none

/-- The native form of a spatial operator. -/
def lower (kind : GeometryKind) (op : SpatialOp) (args : List String) : Option String :=
  match op with
  | .construct => construct kind args
  | .equals => predicate "STEquals" "1" args
  | .notEquals => predicate "STEquals" "0" args
  | .asText => method "STAsText" args
  | .getX => property "STX" args
  | .getY => property "STY" args
  | .minX | .maxX | .minY | .maxY => args.head?.map (bound kind op)
  | .boundingBox => method "STEnvelope" args
  | .measurableDimensions => method "STDimension" args
  | .spatialDimensions | .hasMagnitude | .magnitude => none
  | .distanceTo => method "STDistance" args
  | .intersects => predicate "STIntersects" "1" args
  | .intersectionPoint => (method "STIntersection" args).map (· ++ ".STPointN(1)")
  | .intersectionPoints | .intersection => method "STIntersection" args
  | .doesNotIntersect => predicate "STDisjoint" "1" args
  | .contains | .containsPoint => predicate "STContains" "1" args
  | .overlaps => predicate "STOverlaps" "1" args
  | .touches => predicate "STTouches" "1" args
  | .within => predicate "STWithin" "1" args
  | .area => method "STArea" args
  | .exteriorRing => method "STExteriorRing" args
  | .numberOfPoints => method "STNumGeometries" args
  | .pointAtIndex => method "STGeometryN" args
  | .toLine | .toPolygon => none
  | .extent => args.head?.map fun g => call "geometry::EnvelopeAggregate" [g]

/-- The spelling of text primitives in SQL Server. -/
def textForms : TextForms where
  concat parts := "(" ++ String.intercalate " + " parts ++ ")"
  position needle text := call "CHARINDEX" [needle, text]
  substring text start length? :=
    call "SUBSTRING" [text, start, length?.getD (call "LEN" [text])]
  length text := call "LEN" [text]
  toNumber text := "CAST(" ++ text ++ " AS FLOAT)"

/-- The value that the order of two numbers picks. -/
def pick (order a b : String) : String :=
  "CASE WHEN " ++ a ++ " " ++ order ++ " " ++ b ++ " THEN " ++ a ++ " ELSE " ++ b ++ " END"

/-- The renderer of SQL Server. -/
def renderer : Renderer α where
  toTextForms := textForms
  name := "sqlserver"
  identifier := Text.enclosed '[' ']'
  number := Numeral.text
  boolean value := if value then "(1=1)" else "(0=1)"
  toText number := "CAST(" ++ number ++ " AS VARCHAR(64))"
  least := pick "<="
  greatest := pick ">="
  geometryLiteral _ wkt := call "geometry::STGeomFromText" [textForms.literal wkt, "0"]
  geometryFromText _ text := call "geometry::STGeomFromText" [text, "0"]
  indexBase := 1
  lower := lower

end SpatialSql.Dialect.SqlServer
