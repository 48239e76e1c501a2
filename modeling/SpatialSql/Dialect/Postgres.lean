import SpatialSql.Dialect.Renderer

/-!
# PostgreSQL with the PostGIS functions
-/

namespace SpatialSql.Dialect.Postgres

variable {α : Type} [Numeral α]

/-- The native form of a construction; a polygon is built from text, which closes its ring. -/
def construct (kind : GeometryKind) (args : List String) : Option String :=
  let array := "(ARRAY[" ++ String.intercalate ", " args ++ "])"
  match kind with
  | .point => some (call "ST_MakePoint" args)
  | .segment => some (call "ST_MakeLine" args)
  | .line => some ("ST_MakeLine" ++ array)
  | .multiPoint => some ("ST_Collect" ++ array)
  | .polygon => none

/-- The box through the bounds of a geometry. -/
def envelope (g : String) : String :=
  call "ST_MakeEnvelope"
    [call "ST_XMin" [g], call "ST_YMin" [g], call "ST_XMax" [g], call "ST_YMax" [g]]

/-- The native form of a spatial operator. -/
def lower (kind : GeometryKind) (op : SpatialOp) (args : List String) : Option String :=
  match op with
  | .construct => construct kind args
  | .equals => some (call "ST_Equals" args)
  | .notEquals => some ("NOT " ++ call "ST_Equals" args)
  | .asText => some (call "ST_AsText" args)
  | .getX => some (call "ST_X" args)
  | .getY => some (call "ST_Y" args)
  | .minX => some (call "ST_XMin" args)
  | .maxX => some (call "ST_XMax" args)
  | .minY => some (call "ST_YMin" args)
  | .maxY => some (call "ST_YMax" args)
  | .boundingBox => args.head?.map envelope
  | .measurableDimensions => some (call "ST_Dimension" args)
  | .spatialDimensions => some (call "ST_CoordDim" args)
  | .hasMagnitude | .magnitude => none
  | .distanceTo => some (call "ST_Distance" args)
  | .intersects => some (call "ST_Intersects" args)
  | .intersectionPoint => some (call "ST_GeometryN" [call "ST_Intersection" args, "1"])
  | .intersectionPoints => some (call "ST_Multi" [call "ST_Intersection" args])
  | .intersection => some (call "ST_Intersection" args)
  | .doesNotIntersect => some (call "ST_Disjoint" args)
  | .contains | .containsPoint => some (call "ST_Contains" args)
  | .overlaps => some (call "ST_Overlaps" args)
  | .touches => some (call "ST_Touches" args)
  | .within => some (call "ST_Within" args)
  | .area => some (call "ST_Area" args)
  | .exteriorRing => some (call "ST_ExteriorRing" args)
  | .numberOfPoints => some (call "ST_NumGeometries" args)
  | .pointAtIndex => some (call "ST_GeometryN" args)
  | .toLine | .toPolygon => none
  | .extent => some (call "ST_Extent" args ++ "::geometry")

/-- The number at a position of a well-known text, by splitting it once. The array counts from one
in words of 32 bits, so that `index + 1` wraps to zero behind the last word, as in a build without
overflow checks. -/
def ordinate (text : String) (index : UInt32) : String :=
  "CAST(NULLIF((regexp_split_to_array(btrim(regexp_replace(" ++ text ++
    ", '^[^(]*', ''), ' ()'), '[ ,()]+'))[" ++ toString (index + 1).toNat ++
    "], '') AS DOUBLE PRECISION)"

/-- The renderer of PostgreSQL. -/
def renderer : Renderer α where
  name := "postgres"
  number := Numeral.text
  ordinate := ordinate
  geometryLiteral _ wkt := call "ST_GeomFromText" [Text.enclosed '\'' '\'' wkt]
  geometryFromText _ text := call "ST_GeomFromText" [text]
  indexBase := 1
  lower := lower

end SpatialSql.Dialect.Postgres
