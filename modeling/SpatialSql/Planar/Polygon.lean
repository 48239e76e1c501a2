import SpatialSql.Planar.Segment

/-!
# Polygons that meet

Membership of a point is decided by casting a ray, with the boundary told apart.
The relations between polygons look at proper crossings of edges and at sample
points: the vertices and the midpoints of edges.
-/

namespace SpatialSql.Planar

open Coordinate

variable {α : Type} [Coordinate α]

/-- The area of a ring with a sign; positive when it runs counter-clockwise. -/
def signedArea (polygon : Polygon α) : α :=
  sum (polygon.edges.map fun e => e.start.x * e.stop.y - e.stop.x * e.start.y) / ofInt 2

/-- The area of a polygon. -/
def area (polygon : Polygon α) : α := abs (signedArea polygon)

/-- The point lies on the boundary. -/
def onBoundary (polygon : Polygon α) (p : Point α) : Bool :=
  polygon.edges.any fun e => onSegment e p

/-- The horizontal ray from the point to the right passes through the edge. -/
def rayCrosses (p : Point α) (e : Segment α) : Bool :=
  less p.y e.start.y != less p.y e.stop.y &&
    less p.x
      (e.start.x + (p.y - e.start.y) * (e.stop.x - e.start.x) / (e.stop.y - e.start.y))

/-- The point lies strictly inside the polygon. -/
def containsPoint (polygon : Polygon α) (p : Point α) : Bool :=
  !onBoundary polygon p && polygon.edges.foldl (fun inside e => inside != rayCrosses p e) false

/-- The point lies inside the polygon or on its boundary. -/
def coversPoint (polygon : Polygon α) (p : Point α) : Bool :=
  onBoundary polygon p || containsPoint polygon p

/-- The polygons share a point, boundaries included. -/
def polygonsIntersect (a b : Polygon α) : Bool :=
  (a.edges.any fun s => b.edges.any fun t => segmentsIntersect s t) ||
    a.ring.any (containsPoint b) || b.ring.any (containsPoint a)

/-- Some edges of the polygons cross properly. -/
def edgesCross (a b : Polygon α) : Bool :=
  a.edges.any fun s => b.edges.any fun t => crossesProperly s t

/-- The point half way along a segment. -/
def midpoint (s : Segment α) : Point α :=
  ⟨(s.start.x + s.stop.x) / ofInt 2, (s.start.y + s.stop.y) / ofInt 2⟩

/-- The vertices of the ring followed by the midpoints of its edges. -/
def samples (polygon : Polygon α) : List (Point α) := polygon.ring ++ polygon.edges.map midpoint

/-- No sample of `b` lies outside `a`, and the interiors share a point. -/
def polygonContains (a b : Polygon α) : Bool :=
  !edgesCross a b && (samples b).all (coversPoint a) &&
    ((samples b).any (containsPoint a) || area a == area b)

/-- The interiors share a point. -/
def interiorsMeet (a b : Polygon α) : Bool :=
  edgesCross a b || (samples b).any (containsPoint a) || (samples a).any (containsPoint b) ||
    polygonContains a b || polygonContains b a

/-- The polygons meet along their boundaries only. -/
def polygonsTouch (a b : Polygon α) : Bool := polygonsIntersect a b && !interiorsMeet a b

/-- The polygons meet and neither contains the other. -/
def polygonsOverlap (a b : Polygon α) : Bool :=
  polygonsIntersect a b && !polygonContains a b && !polygonContains b a

end SpatialSql.Planar
