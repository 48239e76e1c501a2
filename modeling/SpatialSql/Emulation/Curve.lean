import SpatialSql.Emulation.WellKnownText
import SpatialSql.Planar.Segment

/-!
# Formulas for lines and segments

Segments that are no literals meet by a formula over the coordinates of their ends:
the ends of each lie on different sides of the other's line, or on it, and the boxes
around both overlap. Lines are decided only when both are literals.
-/

namespace SpatialSql.Emulation

open SpatialSql.Expr

/-- What replaces a spatial node that a dialect declines. -/
inductive Emulated (α : Type) where
  /-- An expression in place of the node. -/
  | value (e : Expr α)
  /-- The well-known text of a geometry of the given kind. -/
  | wkt (kind : GeometryKind) (text : Expr α)

variable {α : Type} [Numeral α]

/-- Twice the signed area of the triangle with the given corners. -/
def orientation (ax ay bx bY cx cy : Expr α) : Expr α :=
  ((bx.minus ax).times (cy.minus ay)).minus ((bY.minus ay).times (cx.minus ax))

/-- The ranges between two pairs of numbers overlap. -/
def rangesOverlap (a₁ a₂ b₁ b₂ : Expr α) : Expr α :=
  ((a₁.least a₂).isAtMost (b₁.greatest b₂)).and ((b₁.least b₂).isAtMost (a₁.greatest a₂))

/-- The product of two numbers is not positive. -/
def straddles (a b : Expr α) : Expr α := (a.times b).isAtMost (number Coordinate.zero)

/-- The segments share a point. -/
def segmentsIntersect (p q : Ends α) : Expr α :=
  let d₁ := orientation q.x₁ q.y₁ q.x₂ q.y₂ p.x₁ p.y₁
  let d₂ := orientation q.x₁ q.y₁ q.x₂ q.y₂ p.x₂ p.y₂
  let d₃ := orientation p.x₁ p.y₁ p.x₂ p.y₂ q.x₁ q.y₁
  let d₄ := orientation p.x₁ p.y₁ p.x₂ p.y₂ q.x₂ q.y₂
  (((straddles d₁ d₂).and (straddles d₃ d₄)).and (rangesOverlap p.x₁ p.x₂ q.x₁ q.x₂)).and
    (rangesOverlap p.y₁ p.y₂ q.y₁ q.y₂)

/-- The text of the point where two segments meet, null when they are parallel or do not meet. -/
def crossingText (p q : Ends α) : Expr α :=
  let rx := p.x₂.minus p.x₁
  let ry := p.y₂.minus p.y₁
  let sx := q.x₂.minus q.x₁
  let sy := q.y₂.minus q.y₁
  let cross := (rx.times sy).minus (ry.times sx)
  let dx := q.x₁.minus p.x₁
  let dy := q.y₁.minus p.y₁
  let u := ((dx.times sy).minus (dy.times sx)).dividedBy cross
  let crossing := pointText (p.x₁.plus (u.times rx)) (p.y₁.plus (u.times ry))
  let crosses := (segmentsIntersect p q).and (cross.isNotEqual (number Coordinate.zero))
  caseWhen crosses crossing (.absent .text)

/-- An operator on two literal lines. -/
def onLines? (op : SpatialOp) (a b : Line α) : Option (Expr α) :=
  match op with
  | .intersects => some (bool (Planar.linesIntersect a b))
  | .intersectionPoint =>
    match (Planar.crossingPoints a b).get? 0 with
    | some p => some (point p)
    | none => some (.absent (.geometry .point))
  | .intersectionPoints => some (multiPoint (Planar.crossingPoints a b))
  | _ => none

/-- An operator on two literal segments. -/
def onSegments? (op : SpatialOp) (s t : Segment α) : Option (Expr α) :=
  match op with
  | .intersects => some (bool (Planar.segmentsIntersect s t))
  | .intersectionPoint =>
    match Planar.segmentIntersection? s t with
    | some p => some (point p)
    | none => some (.absent (.geometry .point))
  | _ => none

/-- The portable form of an operator on two lines. -/
def emulateLine? (op : SpatialOp) (a b : Expr α) : Option (Emulated α) :=
  match a.line?, b.line? with
  | some l, some m => (onLines? op l m).map .value
  | _, _ => none

/-- The portable form of an operator on two segments. -/
def emulateSegment? (op : SpatialOp) (a b : Expr α) : Option (Emulated α) :=
  match a.segment?, b.segment? with
  | some s, some t => (onSegments? op s t).map .value
  | _, _ =>
    match op with
    | .intersects => some (.value (segmentsIntersect (segmentEnds a) (segmentEnds b)))
    | .intersectionPoint => some (.wkt .point (crossingText (segmentEnds a) (segmentEnds b)))
    | _ => none

end SpatialSql.Emulation
