import SpatialSql.Geometry.Basic

/-!
# Well-known text

The text form of geometries: a tag and the coordinates in parentheses, a space
inside a pair and a comma between pairs.
-/

namespace SpatialSql

variable {α : Type} [Numeral α]

/-- The coordinates of a point, `x y`. -/
def Point.coordinates (p : Point α) : String := Numeral.text p.x ++ " " ++ Numeral.text p.y

/-- The coordinates of points, separated by commas. -/
def coordinateList (points : List (Point α)) : String :=
  String.intercalate ", " (points.map Point.coordinates)

/-- The text of a point. -/
def Point.wkt (p : Point α) : String := "POINT (" ++ p.coordinates ++ ")"

/-- The text of a line. -/
def Line.wkt (line : Line α) : String :=
  if line.points.isEmpty then "LINESTRING EMPTY"
  else "LINESTRING (" ++ coordinateList line.points ++ ")"

/-- The text of a segment. -/
def Segment.wkt (s : Segment α) : String := "LINESTRING (" ++ coordinateList s.points ++ ")"

/-- The text of a collection of points; every member has parentheses of its own. -/
def MultiPoint.wkt (points : MultiPoint α) : String :=
  if points.points.isEmpty then "MULTIPOINT EMPTY"
  else
    let members := points.points.map fun p => "(" ++ p.coordinates ++ ")"
    "MULTIPOINT (" ++ String.intercalate ", " members ++ ")"

/-- The text of a polygon. -/
def Polygon.wkt (polygon : Polygon α) : String :=
  "POLYGON ((" ++ coordinateList polygon.ring ++ "))"

end SpatialSql
