import SpatialSql.Expr.Text
import SpatialSql.Error

/-!
# Geometric expressions

Builders for the five geometries. Constructions over literal members are literals
when they have enough of them; every other builder makes a spatial node, which the
dialect lowers or the compiler replaces by a portable formula.
-/

namespace SpatialSql.Expr

open Coordinate

variable {α : Type}

/-- A node that is a bounding box already, of one geometry or of a group. -/
def isBox (e : Expr α) : Bool :=
  (e.spatialOperands? .boundingBox).isSome || (e.spatialOperands? .extent).isSome

/-- The bounding box of a geometry; a box is its own. -/
def boundingBox (kind : GeometryKind) (g : Expr α) : Expr α :=
  if g.isBox then g else spatial₁ kind .boundingBox g

/-- A construction node. -/
def construct (kind : GeometryKind) (members : List (Expr α)) : Expr α :=
  spatial kind .construct .nary members

/-- The literal points behind a list of expressions, if all are literal. -/
def points? (members : List (Expr α)) : Option (List (Point α)) := members.mapM point?

section Points

/-- The point with the given coordinates. -/
def pointAtCoordinates (x y : Expr α) : Expr α :=
  match x.number?, y.number? with
  | some a, some b => point ⟨a, b⟩
  | _, _ => construct .point [x, y]

/-- The first coordinate of a point. -/
def getX (p : Expr α) : Expr α := spatial₁ .point .getX p

/-- The second coordinate of a point. -/
def getY (p : Expr α) : Expr α := spatial₁ .point .getY p

/-- The distance between two points. -/
def distanceTo (p q : Expr α) : Expr α := spatial₂ .point .distanceTo p q

end Points

section Curves

/-- The line through the given points; it needs two of them. -/
def lineThrough (members : List (Expr α)) : Expr α :=
  match points? members with
  | some points =>
    if GeometryKind.line.minMembers ≤ members.length then line ⟨points⟩ else construct .line members
  | none => construct .line members

/-- A known line; one that is too short becomes a construction of its points. -/
def lineOf (l : Line α) : Expr α := lineThrough (l.points.map point)

/-- The segment between two points. -/
def segmentBetween (a b : Expr α) : Expr α :=
  match a.point?, b.point? with
  | some p, some q => segment ⟨p, q⟩
  | _, _ => construct .segment [a, b]

/-- The segment between two points given by their coordinates. -/
def segmentAtCoordinates (x₁ y₁ x₂ y₂ : Expr α) : Expr α :=
  segmentBetween (pointAtCoordinates x₁ y₁) (pointAtCoordinates x₂ y₂)

end Curves

section Collections

/-- The collection of the given points; it needs one of them. -/
def multiPointOf (members : List (Expr α)) : Expr α :=
  match points? members with
  | some points =>
    if GeometryKind.multiPoint.minMembers ≤ members.length then multiPoint ⟨points⟩
    else construct .multiPoint members
  | none => construct .multiPoint members

/-- A member of a collection by its index. A literal index that is no natural number gives an absent
point. -/
def pointAt [Numeral α] (points index : Expr α) : Expr α :=
  match index.number? with
  | some n =>
    match Numeral.natural? n with
    | some _ => spatial₂ .multiPoint .pointAtIndex points index
    | none => absent (.geometry .point)
  | none => spatial₂ .multiPoint .pointAtIndex points index

/-- The number of members of a collection. -/
def numberOfPoints (points : Expr α) : Expr α := spatial₁ .multiPoint .numberOfPoints points

/-- The line through the members of a collection. -/
def toLine (points : Expr α) : Expr α :=
  match points.multiPoint? with
  | some m => lineOf ⟨m.points⟩
  | none =>
    match points.spatialOperands? .construct with
    | some members => lineThrough members
    | none => spatial₁ .multiPoint .toLine points

/-- No polygon can be made from the points of a line or collection expression. -/
def toPolygon (kind : GeometryKind) : Except Error (Expr α) :=
  .error (.notImplemented kind .toPolygon)

end Collections

section Polygons

/-- The polygon through the given points; it needs three of them. -/
def polygonThrough [Coordinate α] (members : List (Expr α)) : Expr α :=
  match (points? members).bind Polygon.ofPoints? with
  | some p => polygon p
  | none => construct .polygon members

/-- The region two polygons share. -/
def intersection (a b : Expr α) : Expr α := spatial₂ .polygon .intersection a b

end Polygons

end SpatialSql.Expr
