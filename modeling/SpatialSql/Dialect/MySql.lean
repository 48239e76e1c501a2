import SpatialSql.Dialect.Renderer

/-!
# MySQL
-/

namespace SpatialSql.Dialect.MySql

variable {α : Type} [Numeral α]

/-- The function that reads the coordinate a bound is about. -/
def accessor : SpatialOp → String
  | .minX | .maxX => "ST_X"
  | _ => "ST_Y"

/-- One bound of a geometry, read off its envelope. The envelope is a point or a line when the
geometry has no extent along an axis. -/
def envelopeBound (op : SpatialOp) (g : String) : String :=
  let envelope := call "ST_Envelope" [g]
  let read (p : String) : String := call (accessor op) [p]
  let (corner, pick) :=
    match op with
    | .minX | .minY => ("1", "LEAST")
    | _ => ("3", "GREATEST")
  "CASE " ++ call "ST_GeometryType" [envelope] ++
    " WHEN 'POLYGON' THEN " ++ read (call "ST_PointN" [call "ST_ExteriorRing" [envelope], corner]) ++
    " WHEN 'LINESTRING' THEN " ++
      call pick [read (call "ST_StartPoint" [envelope]), read (call "ST_EndPoint" [envelope])] ++
    " ELSE " ++ read envelope ++ " END"

/-- One bound of a geometry. -/
def bound (kind : GeometryKind) (op : SpatialOp) (g : String) : String :=
  if kind = .point then call (accessor op) [g] else envelopeBound op g

/-- The native form of a spatial operator. An envelope is not always a polygon, so a rectangle is
left to its bounds; lines may meet more than once, so only segments have a single crossing point. -/
def lower (kind : GeometryKind) (op : SpatialOp) (args : List String) : Option String :=
  match op with
  | .construct =>
    match kind with
    | .point => some (call "POINT" args)
    | .line | .segment => some (call "LINESTRING" args)
    | .multiPoint => some (call "MULTIPOINT" args)
    | .polygon => none
  | .equals => some (call "ST_Equals" args)
  | .notEquals => some ("NOT " ++ call "ST_Equals" args)
  | .asText => some (call "ST_AsText" args)
  | .getX => some (call "ST_X" args)
  | .getY => some (call "ST_Y" args)
  | .minX | .maxX | .minY | .maxY => args.head?.map (bound kind op)
  | .boundingBox => none
  | .measurableDimensions => some (call "ST_Dimension" args)
  | .spatialDimensions | .hasMagnitude | .magnitude => none
  | .distanceTo => some (call "ST_Distance" args)
  | .intersects => some (call "ST_Intersects" args)
  | .intersectionPoint => if kind = .segment then some (call "ST_Intersection" args) else none
  | .intersectionPoints | .intersection => some (call "ST_Intersection" args)
  | .doesNotIntersect => some (call "ST_Disjoint" args)
  | .contains | .containsPoint => some (call "ST_Contains" args)
  | .overlaps => some (call "ST_Overlaps" args)
  | .touches => some (call "ST_Touches" args)
  | .within => some (call "ST_Within" args)
  | .area => some (call "ST_Area" args)
  | .exteriorRing => some (call "ST_ExteriorRing" args)
  | .numberOfPoints => some (call "ST_NumGeometries" args)
  | .pointAtIndex => some (call "ST_GeometryN" args)
  | .toLine | .toPolygon | .extent => none

/-- The number at a position of a well-known text, by one pattern match. Matches count from one in
words of 32 bits, so that `index + 1` wraps to zero behind the last word, as in a build without
overflow checks. -/
def ordinate (text : String) (index : UInt32) : String :=
  "CAST(REGEXP_SUBSTR(REGEXP_REPLACE(" ++ text ++ ", '^[^(]*', ''), '[^ ,()]+', 1, " ++
    toString (index + 1).toNat ++ ") AS DOUBLE)"

/-- The spelling of text primitives in MySQL. -/
def textForms : TextForms where
  concat parts := call "CONCAT" parts
  position needle text := call "LOCATE" [needle, text]
  substring text start length? := call "SUBSTRING" ([text, start] ++ length?.toList)
  length text := call "CHAR_LENGTH" [text]
  toNumber text := "CAST(" ++ text ++ " AS DOUBLE)"

/-- The renderer of MySQL. -/
def renderer : Renderer α where
  toTextForms := textForms
  name := "mysql"
  identifier name := String.ofList (Text.doubled (Char.ofNat 0x60) name.toList) |> ("`" ++ · ++ "`")
  number := Numeral.text
  ordinate := ordinate
  toText number := "CAST(" ++ number ++ " AS CHAR)"
  geometryLiteral _ wkt := call "ST_GeomFromText" [textForms.literal wkt]
  geometryFromText _ text := call "ST_GeomFromText" [text]
  indexBase := 1
  lower := lower

end SpatialSql.Dialect.MySql
