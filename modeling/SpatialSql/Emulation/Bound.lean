import SpatialSql.Emulation.WellKnownText

/-!
# Bounds of geometric operands

The four operators that give a side of the bounding box, resolved through literals,
constructions, boxes and segments.
-/

namespace SpatialSql

/-- A side of a box: the lower or the upper bound along an axis. -/
structure Side where
  axis : Axis
  /-- The lower bound. -/
  isMin : Bool
  deriving DecidableEq, Repr

namespace Side

/-- The lower bound along the first axis. -/
def minX : Side := ⟨.x, true⟩

/-- The upper bound along the first axis. -/
def maxX : Side := ⟨.x, false⟩

/-- The lower bound along the second axis. -/
def minY : Side := ⟨.y, true⟩

/-- The upper bound along the second axis. -/
def maxY : Side := ⟨.y, false⟩

/-- The operator that gives a side. -/
def op : Side → SpatialOp
  | ⟨.x, true⟩ => .minX
  | ⟨.x, false⟩ => .maxX
  | ⟨.y, true⟩ => .minY
  | ⟨.y, false⟩ => .maxY

/-- The side of a known box. -/
def of {α : Type} (side : Side) (b : Bounds α) : α :=
  match side with
  | ⟨.x, true⟩ => b.minX
  | ⟨.x, false⟩ => b.maxX
  | ⟨.y, true⟩ => b.minY
  | ⟨.y, false⟩ => b.maxY

end Side

namespace Emulation

open SpatialSql.Expr

variable {α : Type} [Numeral α]

/-- The better of two numbers for a side. -/
def extreme (side : Side) (a b : Expr α) : Expr α :=
  if side.isMin then a.least b else a.greatest b

/-- The bound of many numbers; there is none for no numbers. -/
def extremeOf? (side : Side) : List (Expr α) → Option (Expr α)
  | [] => none
  | a :: rest => some (rest.foldl (extreme side) a)

/-- A side of the box around a literal geometry: nothing for other expressions. -/
def literalBound? (side : Side) (g : Expr α) : Option (Expr α) :=
  (g.literal?.bind Literal.bounds?).map fun bounds? =>
    match bounds? with
    | some b => number (side.of b)
    | none => .absent .number

/-- A side of the box around a geometry as an operand of a larger formula: known for absent values,
literals and points, else a node of its own. -/
def boundOf (kind : GeometryKind) (side : Side) (g : Expr α) : Expr α :=
  if g.isAbsent then .absent .number
  else
    match literalBound? side g with
    | some bound => bound
    | none => if kind = .point then coordinate side.axis g else spatial₁ kind side.op g

/-- A side of the box around a node, from the structure of the node. -/
def nodeBound? (kind : GeometryKind) (side : Side) (g : Expr α) : Option (Expr α) :=
  match g with
  | .node (.spatial _ .construct) _ _ members _ =>
    extremeOf? side (members.map (coordinate side.axis))
  | .node (.spatial inner .boundingBox) _ _ operands _ =>
    operands.head?.map (boundOf inner side)
  | .node (.spatial inner .extent) _ _ operands _ =>
    operands.head?.map fun g =>
      if side.isMin then (boundOf inner side g).minimum else (boundOf inner side g).maximum
  | g =>
    if kind = .segment then
      let ends := segmentEnds g
      match side.axis with
      | .x => some (extreme side ends.x₁ ends.x₂)
      | .y => some (extreme side ends.y₁ ends.y₂)
    else none

/-- The portable formula for a side of the box around a geometry, where the operand allows one. -/
def emulateBound? (kind : GeometryKind) (side : Side) (g : Expr α) : Option (Expr α) :=
  if g.isAbsent || (literalBound? side g).isSome || kind = .point then some (boundOf kind side g)
  else nodeBound? kind side g

/-- A side of the box around a geometry, resolved as far as possible. -/
def resolvedBound (kind : GeometryKind) (side : Side) (g : Expr α) : Expr α :=
  (emulateBound? kind side g).getD (boundOf kind side g)

end Emulation

end SpatialSql
