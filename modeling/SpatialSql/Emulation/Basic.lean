import SpatialSql.Emulation.Bound
import SpatialSql.Emulation.Collection
import SpatialSql.Emulation.Polygon

/-!
# Portable forms of spatial operators

The formula that replaces a spatial node when a dialect declines it, where the
operands allow one. `basic?` treats the operators that need no other operator's
formula; `emulate?` adds those defined by the result of another one.
-/

namespace SpatialSql.Emulation

open SpatialSql.Expr

variable {α : Type} [Numeral α]

/-- The text of a geometry. A stored geometry is its own text where no function gives it. -/
def emulateAsText (kind : GeometryKind) (g : Expr α) : Expr α := (knownText? kind g).getD g

/-- Two geometries are equal: points by their coordinates, others by their text. -/
def emulateEquals (kind : GeometryKind) (a b : Expr α) : Expr α :=
  if kind = .point then pointsEqual a b else (textOf kind a).isEqual (textOf kind b)

/-- The bounding box of a geometry. -/
def emulateBoundingBox (kind : GeometryKind) (g : Expr α) : Emulated α :=
  if g.isBox then .value g
  else
    match g.literal?.bind Literal.bounds? with
    | some (some b) => .value (polygon (Polygon.rectangle b))
    | some none => .value (.absent (.geometry .polygon))
    | none =>
      let bound (side : Side) : Expr α := resolvedBound kind side g
      .wkt .polygon (rectangleText (bound .minX) (bound .minY) (bound .maxX) (bound .maxY))

/-- The bounding box of a group. -/
def emulateExtent (kind : GeometryKind) (g : Expr α) : Emulated α :=
  let bound (side : Side) : Expr α := resolvedBound kind side g
  .wkt .polygon
    (rectangleText (bound .minX).minimum (bound .minY).minimum (bound .maxX).maximum
      (bound .maxY).maximum)

/-- The portable form of an operator that belongs to one geometry kind. -/
def emulateKind? (kind : GeometryKind) (op : SpatialOp) (args : List (Expr α)) :
    Option (Emulated α) :=
  match kind, args with
  | .point, args => emulatePoint? op args
  | .line, [a, b] => emulateLine? op a b
  | .segment, [a, b] => emulateSegment? op a b
  | .multiPoint, args => emulateMultiPoint? op args
  | .polygon, args => emulatePolygon? op args
  | _, _ => none

/-- The portable form of an operator that needs no other operator's formula. -/
def basic? (kind : GeometryKind) (op : SpatialOp) (args : List (Expr α)) : Option (Emulated α) :=
  match op, args with
  | .construct, members => some (.wkt kind (constructText kind members))
  | .asText, [g] => some (.value (emulateAsText kind g))
  | .equals, [a, b] => some (.value (emulateEquals kind a b))
  | .minX, [g] => (emulateBound? kind .minX g).map .value
  | .maxX, [g] => (emulateBound? kind .maxX g).map .value
  | .minY, [g] => (emulateBound? kind .minY g).map .value
  | .maxY, [g] => (emulateBound? kind .maxY g).map .value
  | .boundingBox, [g] => some (emulateBoundingBox kind g)
  | .measurableDimensions, [_] => some (.value (number (Coordinate.ofNat kind.dimension)))
  | .spatialDimensions, [_] => some (.value (number (Coordinate.ofInt 2)))
  | .hasMagnitude, [_] => some (.value (bool false))
  | .magnitude, [_] => some (.value (.absent .number))
  | .extent, [g] => some (emulateExtent kind g)
  | op, args => emulateKind? kind op args

/-- A spatial node, or the literal it comes to. -/
def folded (kind : GeometryKind) (op : SpatialOp) (a b : Expr α) : Expr α :=
  let node := spatial₂ kind op a b
  if node.isGuarded then node
  else
    match basic? kind op [a, b] with
    | some (.value (.literal value)) => .literal value
    | _ => node

/-- Two polygons overlap: they meet, and the region they share is neither of them. -/
def emulateOverlaps (a b : Expr α) : Expr α :=
  match a.polygon?, b.polygon? with
  | some p, some q => bool (Planar.polygonsOverlap p q)
  | _, _ =>
    let shared := intersection a b
    ((folded .polygon .intersects a b).and (spatial₂ .polygon .notEquals shared a)).and
      (spatial₂ .polygon .notEquals shared b)

/-- The first polygon lies within the second. -/
def emulateWithin (a b : Expr α) : Expr α :=
  if a.isAbsent then .absent .boolean else folded .polygon .contains b a

/-- The portable form of a spatial operator, where the operands allow one. -/
def emulate? (kind : GeometryKind) (op : SpatialOp) (args : List (Expr α)) :
    Option (Emulated α) :=
  match kind, op, args with
  | kind, .notEquals, [a, b] => some (.value (folded kind .equals a b).not)
  | kind, .doesNotIntersect, [a, b] => some (.value (folded kind .intersects a b).not)
  | .polygon, .overlaps, [a, b] => some (.value (emulateOverlaps a b))
  | .polygon, .within, [a, b] => some (.value (emulateWithin a b))
  | kind, op, args => basic? kind op args

end SpatialSql.Emulation
