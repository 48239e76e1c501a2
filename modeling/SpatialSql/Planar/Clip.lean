import SpatialSql.Planar.Polygon

/-!
# Clipping to a convex polygon

The ring of the subject is cut by the line through each edge of the clip polygon
in turn, keeping the inner side.
-/

namespace SpatialSql.Planar

open Coordinate

variable {α : Type} [Coordinate α]

/-- The turns at the vertices of a ring, taken cyclically and without the repeated end. -/
def turns (polygon : Polygon α) : List α :=
  let opened := polygon.ring.dropLast
  let next := opened.drop 1 ++ opened.take 1
  let afterNext := next.drop 1 ++ next.take 1
  opened.zip (next.zip afterNext) |>.map fun (a, b, c) => orientation a b c

/-- All turns that are not straight go the same way; a polygon without points is not convex. -/
def isConvex (polygon : Polygon α) : Bool :=
  let bends := (turns polygon).filter fun turn => turn != zero
  !polygon.ring.isEmpty && (bends.all positive || bends.all negative)

/-- The point where the segment from `p` to `q` meets the line through an edge. -/
def meetEdgeLine? (p q : Point α) (e : Segment α) : Option (Point α) :=
  let dp := orientation e.start e.stop p
  let dq := orientation e.start e.stop q
  if dp == dq then none
  else
    let t := dp / (dp - dq)
    some ⟨p.x + t * (q.x - p.x), p.y + t * (q.y - p.y)⟩

/-- The point lies on the inner side of an edge, or on its line. -/
def innerSide (winding : α) (e : Segment α) (p : Point α) : Bool :=
  atMost zero (orientation e.start e.stop p * winding)

/-- What the step from one vertex to the next leaves on the inner side of an edge. -/
def clipStep (winding : α) (e : Segment α) (previous current : Point α) : List (Point α) :=
  match innerSide winding e previous, innerSide winding e current with
  | true, true => [current]
  | true, false => (meetEdgeLine? previous current e).toList
  | false, true => (meetEdgeLine? previous current e).toList ++ [current]
  | false, false => []

/-- Cuts an open ring by the line through one edge. -/
def clipEdge (winding : α) (ring : List (Point α)) (e : Segment α) : List (Point α) :=
  match ring.getLast? with
  | none => []
  | some last =>
    (last :: ring).zip ring |>.flatMap fun (previous, current) => clipStep winding e previous current

/-- Drops every point that equals the one before it. -/
def dropRepeats : List (Point α) → List (Point α)
  | [] => []
  | p :: rest => p :: go p rest
where
  go (kept : Point α) : List (Point α) → List (Point α)
    | [] => []
    | q :: rest => if q == kept then go kept rest else q :: go q rest

/-- Drops the last of several points when it equals the first. -/
def openRing (ring : List (Point α)) : List (Point α) :=
  match ring with
  | first :: _ :: _ =>
    if ring.getLast?.getD first == first then ring.dropLast else ring
  | _ => ring

/-- The open ring of the region a polygon shares with a convex one. It has fewer than three points
when the polygons only touch; a clip polygon that is not convex gives nothing. -/
def clipToConvex? (subject clip : Polygon α) : Option (List (Point α)) :=
  if isConvex clip then
    let winding := sign (signedArea clip)
    some (openRing (dropRepeats (clip.edges.foldl (clipEdge winding) subject.ring.dropLast)))
  else none

end SpatialSql.Planar
