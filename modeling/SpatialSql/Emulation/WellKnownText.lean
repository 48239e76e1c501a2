import SpatialSql.Expr.Geometry

/-!
# Coordinates and texts of geometric operands

The coordinates of a point expression and the well-known text of any geometric
expression. What is known without a database is taken from literals and from the
members of constructions; else the operand is wrapped in an accessor that is more
primitive than the operator it serves.
-/

namespace SpatialSql

/-- The two axes of the plane. -/
inductive Axis where
  | x
  | y
  deriving DecidableEq, Repr

namespace Axis

/-- The operator that reads a coordinate of a point. -/
def getter : Axis → SpatialOp
  | x => .getX
  | y => .getY

/-- The position of a coordinate in a pair. -/
def index : Axis → Nat
  | x => 0
  | y => 1

/-- The coordinate of a point. -/
def of {α : Type} (axis : Axis) (p : Point α) : α :=
  match axis with
  | x => p.x
  | y => p.y

end Axis

namespace Emulation

open SpatialSql.Expr

variable {α : Type}

/-- A coordinate that is known without asking the dialect. -/
def knownCoordinate? (axis : Axis) (p : Expr α) : Option (Expr α) :=
  match p with
  | .absent _ => some (.absent .number)
  | .literal (.point q) => some (number (axis.of q))
  | p => (p.spatialOperands? .construct).bind fun members => members[axis.index]?

/-- A coordinate of a point expression. -/
def coordinate (axis : Axis) (p : Expr α) : Expr α :=
  (knownCoordinate? axis p).getD (spatial₁ .point axis.getter p)

section Text

variable [Numeral α]

/-- The text of a coordinate pair, `x y`. -/
def pairText (x y : Expr α) : Expr α := concatAll [x.toText, text " ", y.toText]

/-- The text of a point operand's coordinates. -/
def coordinatesText (p : Expr α) : Expr α := pairText (coordinate .x p) (coordinate .y p)

/-- The well-known text of a point. -/
def pointText (x y : Expr α) : Expr α := concatAll [text "POINT (", pairText x y, text ")"]

/-- Puts commas between items. -/
def joined : List (Expr α) → List (Expr α)
  | [] => []
  | [item] => [item]
  | item :: rest => item :: text ", " :: joined rest

/-- Encloses parts in two fixed texts. -/
def wrapped (opening : String) (parts : List (Expr α)) (closing : String) : Expr α :=
  concatAll (text opening :: parts ++ [text closing])

/-- The points are equal, coordinate by coordinate. -/
def pointsEqual (p q : Expr α) : Expr α :=
  ((coordinate .x p).isEqual (coordinate .x q)).and ((coordinate .y p).isEqual (coordinate .y q))

/-- What closes a ring: nothing when it ends where it starts, else a comma and the first point. -/
def ringClosure (first last : Expr α) : Expr α :=
  if first == last then text ""
  else caseWhen (pointsEqual first last) (text "") (concat (text ", ") (coordinatesText first))

/-- The well-known text of a construction. -/
def constructText (kind : GeometryKind) (members : List (Expr α)) : Expr α :=
  match kind with
  | .point => pointText (members[0]?.getD (.absent .number)) (members[1]?.getD (.absent .number))
  | .line | .segment => wrapped "LINESTRING (" (joined (members.map coordinatesText)) ")"
  | .multiPoint =>
    wrapped "MULTIPOINT (" (joined (members.map fun m => wrapped "(" [coordinatesText m] ")")) ")"
  | .polygon =>
    let closure :=
      match members.head?, members.getLast? with
      | some first, some last => [ringClosure first last]
      | _, _ => []
    wrapped "POLYGON ((" (joined (members.map coordinatesText) ++ closure) "))"

/-- The well-known text of the rectangle through four bounds. -/
def rectangleText (minX minY maxX maxY : Expr α) : Expr α :=
  let corners :=
    [pairText minX minY, pairText maxX minY, pairText maxX maxY, pairText minX maxY,
      pairText minX minY]
  wrapped "POLYGON ((" (joined corners) "))"

/-- The well-known text of a geometry that is known without asking the dialect: of an absent value, a
literal or a construction that is no null test. -/
def knownText? (kind : GeometryKind) (g : Expr α) : Option (Expr α) :=
  match g with
  | .absent _ => some (.absent .text)
  | .literal value => value.wkt?.map fun (_, wkt) => text wkt
  | .node (.spatial _ .construct) _ _ members false => some (constructText kind members)
  | _ => none

/-- The well-known text of a geometry. -/
def textOf (kind : GeometryKind) (g : Expr α) : Expr α :=
  (knownText? kind g).getD (spatial₁ kind .asText g)

/-- The coordinates of the two ends of a segment. -/
structure Ends (α : Type) where
  x₁ : Expr α
  y₁ : Expr α
  x₂ : Expr α
  y₂ : Expr α

/-- The coordinates of the ends of a segment operand. -/
def segmentEnds (s : Expr α) : Ends α :=
  match s.segment?, s.spatialOperands? .construct with
  | some v, _ => ⟨number v.start.x, number v.start.y, number v.stop.x, number v.stop.y⟩
  | none, some [start, stop] =>
    ⟨coordinate .x start, coordinate .y start, coordinate .x stop, coordinate .y stop⟩
  | none, _ =>
    let wkt := textOf .segment s
    ⟨wkt.ordinate 0, wkt.ordinate 1, wkt.ordinate 2, wkt.ordinate 3⟩

end Text

end Emulation

end SpatialSql
