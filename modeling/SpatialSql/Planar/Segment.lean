import SpatialSql.Geometry.Basic

/-!
# Segments and lines that meet

All tests rest on the orientation of three points. A segment meets another when
their ends lie on opposite sides of each other, or when an end of one lies on the
other.
-/

namespace SpatialSql.Planar

open Coordinate

variable {α : Type} [Coordinate α]

/-- Twice the signed area of a triangle; positive when its corners run counter-clockwise. -/
def orientation (a b c : Point α) : α :=
  (b.x - a.x) * (c.y - a.y) - (b.y - a.y) * (c.x - a.x)

/-- The point lies in the box around the segment. -/
def withinBox (s : Segment α) (p : Point α) : Bool :=
  atMost (least s.start.x s.stop.x) p.x && atMost p.x (greatest s.start.x s.stop.x) &&
    atMost (least s.start.y s.stop.y) p.y && atMost p.y (greatest s.start.y s.stop.y)

/-- The point lies on the segment. -/
def onSegment (s : Segment α) (p : Point α) : Bool :=
  orientation s.start s.stop p == zero && withinBox s p

/-- The numbers lie strictly on opposite sides of zero. -/
def opposite (a b : α) : Bool := (positive a && negative b) || (negative a && positive b)

/-- The segments cross at a single point inside both. -/
def crossesProperly (s t : Segment α) : Bool :=
  opposite (orientation t.start t.stop s.start) (orientation t.start t.stop s.stop) &&
    opposite (orientation s.start s.stop t.start) (orientation s.start s.stop t.stop)

/-- The segments share a point. -/
def segmentsIntersect (s t : Segment α) : Bool :=
  crossesProperly s t || onSegment t s.start || onSegment t s.stop || onSegment s t.start ||
    onSegment s t.stop

/-- The single point where two segments that are not parallel meet. -/
def segmentIntersection? (s t : Segment α) : Option (Point α) :=
  let rx := s.stop.x - s.start.x
  let ry := s.stop.y - s.start.y
  let qx := t.stop.x - t.start.x
  let qy := t.stop.y - t.start.y
  let cross := rx * qy - ry * qx
  if cross == zero || !segmentsIntersect s t then none
  else
    let dx := t.start.x - s.start.x
    let dy := t.start.y - s.start.y
    let u := (dx * qy - dy * qx) / cross
    some ⟨s.start.x + u * rx, s.start.y + u * ry⟩

/-- Some segment of one line shares a point with some segment of the other. -/
def linesIntersect (a b : Line α) : Bool :=
  a.segments.any fun s => b.segments.any fun t => segmentsIntersect s t

/-- Adds a point at the end unless the list has it already. -/
def insertNew (found : List (Point α)) (p : Point α) : List (Point α) :=
  if found.contains p then found else found ++ [p]

/-- The crossing points of two lines in the order of first discovery, walking the first line and
for each of its segments the second. -/
def crossingPoints (a b : Line α) : MultiPoint α :=
  let crossings := a.segments.flatMap fun s => b.segments.filterMap fun t => segmentIntersection? s t
  ⟨crossings.foldl insertNew []⟩

end SpatialSql.Planar
