import SpatialSql.Kind
import SpatialSql.Geometry.WellKnownText

/-!
# Literals and column references

The leaves of an expression that carry data: known values, and columns of the
tables of the surrounding query.
-/

namespace SpatialSql

/-- A value known before any query runs. -/
inductive Literal (α : Type) where
  | bool (value : Bool)
  | number (value : α)
  | text (value : String)
  | point (value : Point α)
  | line (value : Line α)
  | segment (value : Segment α)
  | multiPoint (value : MultiPoint α)
  | polygon (value : Polygon α)
  deriving BEq, Repr

namespace Literal

variable {α : Type}

/-- The kind of a literal. -/
def kind : Literal α → ValueKind
  | bool _ => .boolean
  | number _ => .number
  | text _ => .text
  | point _ => .geometry .point
  | line _ => .geometry .line
  | segment _ => .geometry .segment
  | multiPoint _ => .geometry .multiPoint
  | polygon _ => .geometry .polygon

/-- The kind and the well-known text of a geometry literal. -/
def wkt? [Numeral α] : Literal α → Option (GeometryKind × String)
  | point p => some (.point, p.wkt)
  | line l => some (.line, l.wkt)
  | segment s => some (.segment, s.wkt)
  | multiPoint m => some (.multiPoint, m.wkt)
  | polygon p => some (.polygon, p.wkt)
  | bool _ | number _ | text _ => none

/-- The box around a geometry literal: nothing for the other literals, and no box for an empty
geometry. -/
def bounds? [Coordinate α] : Literal α → Option (Option (Bounds α))
  | point p => some (some (Bounds.point p))
  | line l => some l.bounds?
  | segment s => some (some s.bounds)
  | multiPoint m => some m.bounds?
  | polygon p => some (some p.bounds)
  | bool _ | number _ | text _ => none

end Literal

/-- A table of the surrounding query. -/
structure Table where
  name : String
  /-- The name the query gives the table, if any. -/
  alias? : Option String := none
  deriving DecidableEq, Repr

namespace Table

/-- The name that qualifies the columns of a table. -/
def qualifier (t : Table) : String := t.alias?.getD t.name

/-- Tables are ordered by name and then by alias, no alias first. -/
def before (s t : Table) : Bool :=
  if s.name = t.name then
    match s.alias?, t.alias? with
    | none, some _ => true
    | some a, some b => decide (a < b)
    | _, none => false
  else decide (s.name < t.name)

/-- Inserts a table into an ordered list unless it is there already. -/
def insert (t : Table) : List Table → List Table
  | [] => [t]
  | s :: rest => if t = s then s :: rest else if t.before s then t :: s :: rest else s :: insert t rest

end Table

/-- A column of a table, with the kind of its values. -/
structure Column where
  table : Table
  name : String
  kind : ValueKind
  deriving DecidableEq, Repr

end SpatialSql
