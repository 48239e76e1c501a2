import SpatialSql.Kind

/-!
# Operators

Spatial operators belong to a geometry kind and are offered to a dialect by the
pair of both. Scalar operators are the vocabulary every dialect can write.
-/

namespace SpatialSql

/-- The spatial operators. -/
inductive SpatialOp where
  /-- Builds a geometry from coordinates or points. -/
  | construct
  | equals
  | notEquals
  /-- The well-known text of a geometry. -/
  | asText
  | getX
  | getY
  | minX
  | maxX
  | minY
  | maxY
  | boundingBox
  | measurableDimensions
  | spatialDimensions
  | hasMagnitude
  | magnitude
  | distanceTo
  | intersects
  /-- One crossing point of two curves. -/
  | intersectionPoint
  /-- Every crossing point of two curves. -/
  | intersectionPoints
  /-- The region two polygons share. -/
  | intersection
  | doesNotIntersect
  | contains
  | containsPoint
  | overlaps
  | touches
  | within
  | area
  | exteriorRing
  | numberOfPoints
  /-- A member by its index, counted from zero. -/
  | pointAtIndex
  | toLine
  | toPolygon
  /-- The bounding box of all rows of a group. -/
  | extent
  deriving DecidableEq, Repr

namespace SpatialOp

/-- All spatial operators, in order. -/
def all : List SpatialOp :=
  [construct, equals, notEquals, asText, getX, getY, minX, maxX, minY, maxY, boundingBox,
    measurableDimensions, spatialDimensions, hasMagnitude, magnitude, distanceTo, intersects,
    intersectionPoint, intersectionPoints, intersection, doesNotIntersect, contains,
    containsPoint, overlaps, touches, within, area, exteriorRing, numberOfPoints, pointAtIndex,
    toLine, toPolygon, extent]

/-- The name an operator has in documents. -/
def name : SpatialOp → String
  | construct => "construct"
  | equals => "equals"
  | notEquals => "not_equals"
  | asText => "as_text"
  | getX => "get_x"
  | getY => "get_y"
  | minX => "min_x"
  | maxX => "max_x"
  | minY => "min_y"
  | maxY => "max_y"
  | boundingBox => "bounding_box"
  | measurableDimensions => "measurable_dimensions"
  | spatialDimensions => "spatial_dimensions"
  | hasMagnitude => "has_magnitude"
  | magnitude => "magnitude"
  | distanceTo => "distance_to"
  | intersects => "intersects"
  | intersectionPoint => "intersection_point"
  | intersectionPoints => "intersection_points"
  | intersection => "intersection"
  | doesNotIntersect => "does_not_intersect"
  | contains => "contains"
  | containsPoint => "contains_point"
  | overlaps => "overlaps"
  | touches => "touches"
  | within => "within"
  | area => "area"
  | exteriorRing => "exterior_ring"
  | numberOfPoints => "number_of_points"
  | pointAtIndex => "point_at_index"
  | toLine => "to_line"
  | toPolygon => "to_polygon"
  | extent => "extent"

/-- The operator with a given name. -/
def ofName? (name : String) : Option SpatialOp := all.find? fun op => op.name == name

/-- Reading an operator's name gives the operator back. -/
theorem ofName?_name (op : SpatialOp) : ofName? op.name = some op := by
  cases op <;> decide

/-- Whether the operator ranges over the rows of a group. -/
def isAggregate (op : SpatialOp) : Bool := op == extent

/-- The number of operands; a construction takes any number. -/
def arity? : SpatialOp → Option Nat
  | construct => none
  | equals | notEquals | distanceTo | intersects | intersectionPoint | intersectionPoints
  | intersection | doesNotIntersect | contains | containsPoint | overlaps | touches | within
  | pointAtIndex => some 2
  | _ => some 1

/-- The kind of value the operator gives on a geometry of the given kind. -/
def resultKind (op : SpatialOp) (kind : GeometryKind) : ValueKind :=
  match op with
  | construct => .geometry kind
  | equals | notEquals | hasMagnitude | intersects | doesNotIntersect | contains | containsPoint
  | overlaps | touches | within => .boolean
  | asText => .text
  | getX | getY | minX | maxX | minY | maxY | measurableDimensions | spatialDimensions
  | magnitude | distanceTo | area | numberOfPoints => .number
  | boundingBox | intersection | toPolygon | extent => .geometry .polygon
  | intersectionPoint | pointAtIndex => .geometry .point
  | intersectionPoints => .geometry .multiPoint
  | exteriorRing | toLine => .geometry .line

end SpatialOp

/-- The scalar operators. -/
inductive ScalarOp where
  | add
  | subtract
  | multiply
  | divide
  | negate
  | squareRoot
  | least
  | greatest
  | equals
  | notEquals
  | lessThan
  | lessThanOrEqual
  | greaterThan
  | greaterThanOrEqual
  | and
  | or
  | not
  | isNull
  | isNotNull
  /-- Condition, value if it holds, value otherwise. -/
  | case
  | concat
  | numberToText
  | textToNumber
  | length
  | trim
  | replace
  /-- The text before the first occurrence of a delimiter. -/
  | substringBefore
  /-- The text after the first occurrence of a delimiter. -/
  | substringAfter
  /-- The number at a position between the parentheses of a well-known text. -/
  | ordinate (index : UInt32)
  | min
  | max
  | count
  deriving DecidableEq, Repr

namespace ScalarOp

/-- The scalar operators that carry no index, in order. -/
def plain : List ScalarOp :=
  [add, subtract, multiply, divide, negate, squareRoot, least, greatest, equals, notEquals,
    lessThan, lessThanOrEqual, greaterThan, greaterThanOrEqual, and, or, not, isNull, isNotNull,
    case, concat, numberToText, textToNumber, length, trim, replace, substringBefore,
    substringAfter, min, max, count]

/-- The name an operator has in documents. -/
def name : ScalarOp → String
  | add => "add"
  | subtract => "subtract"
  | multiply => "multiply"
  | divide => "divide"
  | negate => "negate"
  | squareRoot => "square_root"
  | least => "least"
  | greatest => "greatest"
  | equals => "equals"
  | notEquals => "not_equals"
  | lessThan => "less_than"
  | lessThanOrEqual => "less_than_or_equal"
  | greaterThan => "greater_than"
  | greaterThanOrEqual => "greater_than_or_equal"
  | and => "and"
  | or => "or"
  | not => "not"
  | isNull => "is_null"
  | isNotNull => "is_not_null"
  | case => "case"
  | concat => "concat"
  | numberToText => "number_to_text"
  | textToNumber => "text_to_number"
  | length => "length"
  | trim => "trim"
  | replace => "replace"
  | substringBefore => "substring_before"
  | substringAfter => "substring_after"
  | ordinate _ => "wkt_ordinate"
  | min => "min"
  | max => "max"
  | count => "count"

/-- The operator without an index that has a given name. -/
def ofName? (name : String) : Option ScalarOp := plain.find? fun op => op.name == name

/-- Whether the operator ranges over the rows of a group. -/
def isAggregate : ScalarOp → Bool
  | min | max | count => true
  | _ => false

/-- The symbol of an operator that is written between its two operands. -/
def symbol? : ScalarOp → Option String
  | add => some "+"
  | subtract => some "-"
  | multiply => some "*"
  | divide => some "/"
  | equals => some "="
  | notEquals => some "<>"
  | lessThan => some "<"
  | lessThanOrEqual => some "<="
  | greaterThan => some ">"
  | greaterThanOrEqual => some ">="
  | and => some "AND"
  | or => some "OR"
  | _ => none

end ScalarOp

/-- The operator of an expression node. -/
inductive Op where
  | scalar (op : ScalarOp)
  /-- A spatial operator on a geometry of the given kind. -/
  | spatial (kind : GeometryKind) (op : SpatialOp)
  deriving DecidableEq, Repr

namespace Op

/-- Whether the operator ranges over the rows of a group. -/
def isAggregate : Op → Bool
  | scalar op => op.isAggregate
  | spatial _ op => op.isAggregate

/-- Spatial operators guard against absent operands; scalar ones let nulls pass. -/
def guards : Op → Bool
  | scalar _ => false
  | spatial .. => true

end Op

end SpatialSql
