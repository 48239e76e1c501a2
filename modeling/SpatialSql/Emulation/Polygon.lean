import SpatialSql.Emulation.Curve
import SpatialSql.Planar.Clip

/-!
# Formulas for polygons

The relations between polygons are decided only when both are literals.
-/

namespace SpatialSql.Emulation

open SpatialSql.Expr

variable {α : Type} [Numeral α]

/-- A property of two literal polygons. -/
def onPolygons? (test : Polygon α → Polygon α → Bool) (a b : Expr α) : Option (Emulated α) :=
  match a.polygon?, b.polygon? with
  | some p, some q => some (.value (bool (test p q)))
  | _, _ => none

/-- The region two known polygons share: nothing where no formula fits, and no polygon where they
share no area. It is known when one contains the other or one is convex. -/
def sharedRegion? (a b : Polygon α) : Option (Option (Polygon α)) :=
  if !Planar.polygonsIntersect a b then some none
  else if Planar.polygonContains a b then some (some b)
  else if Planar.polygonContains b a then some (some a)
  else
    ((Planar.clipToConvex? a b).or (Planar.clipToConvex? b a)).map fun ring =>
      (Polygon.ofPoints? ring).filter fun p => Coordinate.positive (Planar.area p)

/-- The region two literal polygons share; a null polygon when it has no area. -/
def emulateIntersection? (a b : Expr α) : Option (Emulated α) :=
  match a.polygon?, b.polygon? with
  | some p, some q =>
    (sharedRegion? p q).map fun region =>
      match region with
      | some r => .value (polygon r)
      | none => .value (.absent (.geometry .polygon))
  | _, _ => none

/-- The ring of a polygon as a line. -/
def emulateExteriorRing (p : Expr α) : Emulated α :=
  match p.polygon? with
  | some v => .value (line v.exteriorRing)
  | none =>
    .wkt .line
      ((((textOf .polygon p).replace "POLYGON" "LINESTRING").replace "((" "(").replace "))" ")")

/-- The portable form of an operator on polygons that needs no other formula. -/
def emulatePolygon? (op : SpatialOp) (args : List (Expr α)) : Option (Emulated α) :=
  match op, args with
  | .containsPoint, [a, b] =>
    match a.polygon?, b.point? with
    | some p, some q => some (.value (bool (Planar.containsPoint p q)))
    | _, _ => none
  | .intersects, [a, b] => onPolygons? Planar.polygonsIntersect a b
  | .contains, [a, b] => onPolygons? Planar.polygonContains a b
  | .touches, [a, b] => onPolygons? Planar.polygonsTouch a b
  | .intersection, [a, b] => emulateIntersection? a b
  | .area, [a] => a.polygon?.map fun p => .value (number (Planar.area p))
  | .exteriorRing, [a] => some (emulateExteriorRing a)
  | _, _ => none

end SpatialSql.Emulation
