import SpatialSql.Emulation.Curve

/-!
# Formulas for points and point collections

Members of a collection that is stored as text are found by their separators.
-/

namespace SpatialSql.Emulation

open SpatialSql.Expr

variable {α : Type} [Numeral α]

/-- A coordinate of a point. -/
def emulateCoordinate (axis : Axis) (p : Expr α) : Expr α :=
  (knownCoordinate? axis p).getD ((textOf .point p).ordinate axis.index.toUInt32)

/-- The distance between two points. -/
def emulateDistance (p q : Expr α) : Expr α :=
  let dx := (coordinate .x q).minus (coordinate .x p)
  let dy := (coordinate .y q).minus (coordinate .y p)
  (dx.squared.plus dy.squared).sqrt

/-- The number of members of a collection: known for literals and constructions, else one more than
the commas of its text. -/
def emulateNumberOfPoints (points : Expr α) : Expr α :=
  match points.multiPoint?, points.spatialOperands? .construct with
  | some m, _ => number (Coordinate.ofNat m.points.length)
  | none, some members => number (Coordinate.ofNat members.length)
  | none, none => ((textOf .multiPoint points).countOf ",").plus (number (Coordinate.ofInt 1))

/-- Drops members from the front of the text of a collection. -/
def skipMembers : Nat → Expr α → Expr α
  | 0, rest => rest
  | n + 1, rest => skipMembers n (rest.substringAfter ",")

/-- The text of the member at an index of a collection that is stored as text, null beyond its end. -/
def memberText (points : Expr α) (index : α) (position : Nat) : Expr α :=
  let rest := skipMembers position ((textOf .multiPoint points).substringAfter "((")
  let member := ((rest.substringBefore ")").replace "(" "").trim
  caseWhen ((number index).isLess (emulateNumberOfPoints points))
    (concatAll [text "POINT (", member, text ")"]) (.absent .text)

/-- The member at a literal index; a null point when there is none. -/
def emulatePointAt (points : Expr α) (index : α) : Emulated α :=
  match Numeral.natural? index with
  | none => .value (.absent (.geometry .point))
  | some position =>
    match points.multiPoint?, points.spatialOperands? .construct with
    | some m, _ =>
      match m.get? position with
      | some p => .value (point p)
      | none => .value (.absent (.geometry .point))
    | none, some members => .value (members[position]?.getD (.absent (.geometry .point)))
    | none, none => .wkt .point (memberText points index position)

/-- The line through the members of a collection. -/
def emulateToLine (points : Expr α) : Emulated α :=
  match points.multiPoint?, points.spatialOperands? .construct with
  | some m, _ =>
    match Line.ofMultiPoint? m with
    | some l => .value (line l)
    | none => .value (.absent (.geometry .line))
  | none, some members => .value (lineThrough members)
  | none, none =>
    let coordinates :=
      ((((textOf .multiPoint points).replace "MULTIPOINT" "").replace "(" "").replace ")" "").trim
    .wkt .line
      (caseWhen (points.numberOfPoints.isAtLeast (number (Coordinate.ofInt 2)))
        (concatAll [text "LINESTRING (", coordinates, text ")"]) (.absent .text))

/-- The portable form of an operator on points. -/
def emulatePoint? (op : SpatialOp) (args : List (Expr α)) : Option (Emulated α) :=
  match op, args with
  | .getX, [p] => some (.value (emulateCoordinate .x p))
  | .getY, [p] => some (.value (emulateCoordinate .y p))
  | .distanceTo, [p, q] => some (.value (emulateDistance p q))
  | _, _ => none

/-- The portable form of an operator on point collections. -/
def emulateMultiPoint? (op : SpatialOp) (args : List (Expr α)) : Option (Emulated α) :=
  match op, args with
  | .numberOfPoints, [points] => some (.value (emulateNumberOfPoints points))
  | .pointAtIndex, [points, index] => index.number?.map (emulatePointAt points)
  | .toLine, [points] => some (emulateToLine points)
  | _, _ => none

end SpatialSql.Emulation
