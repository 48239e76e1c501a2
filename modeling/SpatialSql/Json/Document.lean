import SpatialSql.Json.Record
import SpatialSql.Expr.Literal
import SpatialSql.Operator

/-!
# Geometry and expression leaves in JSON

Each type has a reader and a writer. A ring is taken as it stands, closed or not.
-/

namespace SpatialSql

/-- Reads a point. -/
def Point.ofJson? (json : Json) : Option (Point Float) := do
  let [some x, some y] ← json.fields? ["x", "y"] | none
  return ⟨← x.float?, ← y.float?⟩

/-- Writes a point. -/
def Point.toJson (p : Point Float) : Json := .record [("x", .float p.x), ("y", .float p.y)]

/-- Reads points under a single field. -/
def pointsOfJson? (field : String) (json : Json) : Option (List (Point Float)) := do
  let [some points] ← json.fields? [field] | none
  points.listOf? Point.ofJson?

/-- Writes points under a single field. -/
def pointsToJson (field : String) (points : List (Point Float)) : Json :=
  .record [(field, .array (points.map Point.toJson))]

/-- Reads a line. -/
def Line.ofJson? (json : Json) : Option (Line Float) := (pointsOfJson? "points" json).map Line.mk

/-- Writes a line. -/
def Line.toJson (line : Line Float) : Json := pointsToJson "points" line.points

/-- Reads a segment. -/
def Segment.ofJson? (json : Json) : Option (Segment Float) := do
  let [some start, some stop] ← json.fields? ["start", "end"] | none
  return ⟨← Point.ofJson? start, ← Point.ofJson? stop⟩

/-- Writes a segment. -/
def Segment.toJson (s : Segment Float) : Json :=
  .record [("start", s.start.toJson), ("end", s.stop.toJson)]

/-- Reads a collection of points. -/
def MultiPoint.ofJson? (json : Json) : Option (MultiPoint Float) :=
  (pointsOfJson? "points" json).map MultiPoint.mk

/-- Writes a collection of points. -/
def MultiPoint.toJson (points : MultiPoint Float) : Json := pointsToJson "points" points.points

/-- Reads a polygon with whatever ring it has. -/
def Polygon.ofJson? (json : Json) : Option (Polygon Float) :=
  (pointsOfJson? "ring" json).map Polygon.mk

/-- Writes a polygon. -/
def Polygon.toJson (polygon : Polygon Float) : Json := pointsToJson "ring" polygon.ring

/-- Reads a literal, a variant named for its type. -/
def Literal.ofJson? (json : Json) : Option (Literal Float) := do
  let (name, content) ← json.variant?
  match name with
  | "Bool" => content.bool?.map .bool
  | "Number" => content.float?.map .number
  | "Text" => content.text?.map .text
  | "Point" => (Point.ofJson? content).map .point
  | "Line" => (Line.ofJson? content).map .line
  | "LineSegment" => (Segment.ofJson? content).map .segment
  | "MultiPoint" => (MultiPoint.ofJson? content).map .multiPoint
  | "Polygon" => (Polygon.ofJson? content).map .polygon
  | _ => none

/-- Writes a literal. -/
def Literal.toJson : Literal Float → Json
  | .bool value => .record [("Bool", .bool value)]
  | .number value => .record [("Number", .float value)]
  | .text value => .record [("Text", .text value)]
  | .point p => .record [("Point", p.toJson)]
  | .line l => .record [("Line", l.toJson)]
  | .segment s => .record [("LineSegment", s.toJson)]
  | .multiPoint m => .record [("MultiPoint", m.toJson)]
  | .polygon p => .record [("Polygon", p.toJson)]

/-- Reads a table. -/
def Table.ofJson? (json : Json) : Option Table := do
  let [some name, alias?] ← json.fields? ["name", "alias"] | none
  return ⟨← name.text?, ← (alias?.getD .null).nullable? Json.text?⟩

/-- Writes a table. -/
def Table.toJson (t : Table) : Json :=
  .record [("name", .text t.name), ("alias", .optional .text t.alias?)]

/-- Reads a kind of value. -/
def ValueKind.ofJson? (json : Json) : Option ValueKind := json.unitVariant?.bind ofName?

/-- Reads a column. -/
def Column.ofJson? (json : Json) : Option Column := do
  let [some table, some name, some kind] ← json.fields? ["table", "column", "kind"] | none
  return ⟨← Table.ofJson? table, ← name.text?, ← ValueKind.ofJson? kind⟩

/-- Writes a column. -/
def Column.toJson (c : Column) : Json :=
  .record [("table", c.table.toJson), ("column", .text c.name), ("kind", .text c.kind.name)]

/-- Reads a scalar operator: a name, or an indexed one with its index. -/
def ScalarOp.ofJson? (json : Json) : Option ScalarOp :=
  match json.unitVariant? with
  | some name => ofName? name
  | none =>
    match json.variant? with
    | some ("wkt_ordinate", index) =>
      match index.int? with
      | some (.ofNat n) => if n < Nat.pow 2 32 then some (.ordinate n.toUInt32) else none
      | _ => none
    | _ => none

/-- Writes a scalar operator. -/
def ScalarOp.toJson : ScalarOp → Json
  | .ordinate index => .record [("wkt_ordinate", .int index.toNat)]
  | op => .text op.name

end SpatialSql
