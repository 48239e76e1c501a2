import SpatialSql.Coordinate

/-!
# Plane geometries

Points, polylines, segments, point collections and polygons given by one ring.
Nothing is assumed of a ring as stored: `Polygon.ofPoints?` closes it and asks for
three points, while documents may bring any ring.
-/

namespace SpatialSql

/-- A point of the plane. -/
structure Point (α : Type) where
  x : α
  y : α
  deriving DecidableEq, BEq, Repr

/-- A polyline through its points in order. -/
structure Line (α : Type) where
  points : List (Point α)
  deriving DecidableEq, BEq, Repr

/-- A straight line between two points. -/
structure Segment (α : Type) where
  start : Point α
  stop : Point α
  deriving DecidableEq, BEq, Repr

/-- A collection of points in order. -/
structure MultiPoint (α : Type) where
  points : List (Point α)
  deriving DecidableEq, BEq, Repr

/-- A polygon given by its ring, the first point repeated at the end. -/
structure Polygon (α : Type) where
  ring : List (Point α)
  deriving DecidableEq, BEq, Repr

/-- An axis-aligned box. -/
structure Bounds (α : Type) where
  minX : α
  minY : α
  maxX : α
  maxY : α
  deriving DecidableEq, BEq, Repr

/-- The segments between consecutive points. -/
def segmentsOf {α : Type} : List (Point α) → List (Segment α)
  | p :: q :: rest => ⟨p, q⟩ :: segmentsOf (q :: rest)
  | _ => []

namespace Point

variable {α : Type} [Coordinate α]

/-- The distance between two points. -/
def distanceTo {α : Type} [Numeral α] (p q : Point α) : α :=
  Numeral.sqrt ((q.x - p.x) * (q.x - p.x) + (q.y - p.y) * (q.y - p.y))

end Point

namespace Bounds

variable {α : Type} [Coordinate α]

/-- The box that holds one point. -/
def point (p : Point α) : Bounds α := ⟨p.x, p.y, p.x, p.y⟩

/-- The least box that holds a box and a point. -/
def extend (b : Bounds α) (p : Point α) : Bounds α :=
  { minX := Coordinate.least b.minX p.x
    minY := Coordinate.least b.minY p.y
    maxX := Coordinate.greatest b.maxX p.x
    maxY := Coordinate.greatest b.maxY p.y }

/-- The least box that holds all points; there is none for no points. -/
def of? : List (Point α) → Option (Bounds α)
  | [] => none
  | p :: rest => some (rest.foldl extend (point p))

/-- The corners of a box, counter-clockwise from the lower left. -/
def corners (b : Bounds α) : List (Point α) :=
  [⟨b.minX, b.minY⟩, ⟨b.maxX, b.minY⟩, ⟨b.maxX, b.maxY⟩, ⟨b.minX, b.maxY⟩]

end Bounds

namespace Line

variable {α : Type}

/-- The segments of a line. -/
def segments (line : Line α) : List (Segment α) := segmentsOf line.points

/-- The line through a collection of points; it needs two of them. -/
def ofMultiPoint? (points : MultiPoint α) : Option (Line α) :=
  if 2 ≤ points.points.length then some ⟨points.points⟩ else none

/-- The box around a line. -/
def bounds? [Coordinate α] (line : Line α) : Option (Bounds α) := Bounds.of? line.points

end Line

namespace Segment

variable {α : Type}

/-- The two ends. -/
def points (s : Segment α) : List (Point α) := [s.start, s.stop]

/-- The box around a segment. -/
def bounds [Coordinate α] (s : Segment α) : Bounds α := (Bounds.point s.start).extend s.stop

end Segment

namespace MultiPoint

variable {α : Type}

/-- A member by its index, counted from zero. -/
def get? (points : MultiPoint α) (index : Nat) : Option (Point α) := points.points[index]?

/-- The box around a collection of points. -/
def bounds? [Coordinate α] (points : MultiPoint α) : Option (Bounds α) := Bounds.of? points.points

end MultiPoint

namespace Polygon

variable {α : Type} [Coordinate α]

/-- Repeats the first point at the end unless the list ends with it already. -/
def closeRing : List (Point α) → List (Point α)
  | [] => []
  | first :: rest =>
    if rest.getLast?.getD first == first then first :: rest else first :: rest ++ [first]

/-- The polygon through at least three points, with its ring closed. -/
def ofPoints? (points : List (Point α)) : Option (Polygon α) :=
  if points.length < 3 then none else some ⟨closeRing points⟩

/-- The polygon through the points of a line. -/
def ofLine? (line : Line α) : Option (Polygon α) := ofPoints? line.points

/-- The polygon through the points of a collection. -/
def ofMultiPoint? (points : MultiPoint α) : Option (Polygon α) := ofPoints? points.points

/-- A box as a polygon. -/
def rectangle (b : Bounds α) : Polygon α := ⟨closeRing b.corners⟩

/-- The square with corners at zero and one. -/
def unitSquare : Polygon α :=
  let zero : α := Coordinate.ofInt 0
  let one : α := Coordinate.ofInt 1
  rectangle ⟨zero, zero, one, one⟩

/-- The ring as a line. -/
def exteriorRing (polygon : Polygon α) : Line α := ⟨polygon.ring⟩

/-- The edges of the ring. -/
def edges (polygon : Polygon α) : List (Segment α) := segmentsOf polygon.ring

/-- The box around a polygon; a polygon without points is taken to lie at the origin. -/
def bounds (polygon : Polygon α) : Bounds α :=
  (Bounds.of? polygon.ring).getD (Bounds.point ⟨Coordinate.zero, Coordinate.zero⟩)

end Polygon

end SpatialSql
