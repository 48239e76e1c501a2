/-!
# Kinds of values

Every expression has a kind: a truth value, a number, a text or one of five plane
geometries.
-/

namespace SpatialSql

/-- The geometries a spatial operator can be applied to. -/
inductive GeometryKind where
  | point
  | line
  | segment
  | multiPoint
  | polygon
  deriving DecidableEq, Repr

/-- The kinds of value an expression can have. -/
inductive ValueKind where
  | boolean
  | number
  | text
  /-- A geometry of the given kind. -/
  | geometry (kind : GeometryKind)
  deriving DecidableEq, Repr

namespace GeometryKind

/-- All geometry kinds, in order. -/
def all : List GeometryKind := [.point, .line, .segment, .multiPoint, .polygon]

/-- The name a kind has in documents. -/
def name : GeometryKind → String
  | point => "point2d"
  | line => "line2d"
  | segment => "line_segment2d"
  | multiPoint => "multi_point2d"
  | polygon => "polygon2d"

/-- The kind with a given name. -/
def ofName? (name : String) : Option GeometryKind := all.find? fun kind => kind.name == name

/-- Reading a kind's name gives the kind back. -/
theorem ofName?_name (kind : GeometryKind) : ofName? kind.name = some kind := by
  cases kind <;> decide

/-- The word that opens the well-known text of a geometry. -/
def tag : GeometryKind → String
  | point => "POINT"
  | line | segment => "LINESTRING"
  | multiPoint => "MULTIPOINT"
  | polygon => "POLYGON"

/-- The topological dimension: points have none, curves one, surfaces two. -/
def dimension : GeometryKind → Nat
  | point | multiPoint => 0
  | line | segment => 1
  | polygon => 2

/-- The fewest members a construction of this kind needs: coordinates of a point, points else. -/
def minMembers : GeometryKind → Nat
  | point | line | segment => 2
  | multiPoint => 1
  | polygon => 3

end GeometryKind

namespace ValueKind

/-- All kinds, in order. -/
def all : List ValueKind := [.boolean, .number, .text] ++ GeometryKind.all.map .geometry

/-- The name a kind has in documents. -/
def name : ValueKind → String
  | boolean => "boolean"
  | number => "number"
  | text => "text"
  | geometry kind => kind.name

/-- The kind with a given name. -/
def ofName? (name : String) : Option ValueKind := all.find? fun kind => kind.name == name

/-- Reading a kind's name gives the kind back. -/
theorem ofName?_name (kind : ValueKind) : ofName? kind.name = some kind := by
  rcases kind with _ | _ | _ | kind
  case geometry => cases kind <;> decide
  all_goals decide

/-- The geometry kind behind a kind, if there is one. -/
def geometry? : ValueKind → Option GeometryKind
  | geometry kind => some kind
  | boolean | number | text => none

end ValueKind

end SpatialSql
