import SpatialSql.Expr.Geometry
import Mathlib.Data.List.Forall2

/-!
# The kinds operators take

Each operator has a signature: the geometries it is offered for, the number of its
operands and their kinds. An expression is well-kinded if every node in it, guarded or
not, has operands of the kinds its operator takes and a spatial node has the kind its
operator gives.
-/

namespace SpatialSql

/-- The kind of the members a geometry is constructed from. -/
def GeometryKind.memberKind : GeometryKind → ValueKind
  | point => .number
  | line | segment | multiPoint | polygon => .geometry .point

/-- Geometries other than points are constructed from points. -/
theorem GeometryKind.memberKind_of_ne {kind : GeometryKind} (h : kind ≠ point) :
    kind.memberKind = .geometry point := by
  cases kind with
  | point => contradiction
  | line | segment | multiPoint | polygon => rfl

namespace SpatialOp

/-- Whether an operator is offered for a geometry. Builders refuse to make the conversion to a
polygon. -/
def offeredFor (op : SpatialOp) (kind : GeometryKind) : Bool :=
  match op with
  | construct | equals | notEquals | asText | minX | maxX | minY | maxY | boundingBox
  | measurableDimensions | spatialDimensions | hasMagnitude | magnitude | extent => true
  | getX | getY | distanceTo => kind = .point
  | intersects => kind = .line ∨ kind = .segment ∨ kind = .polygon
  | intersectionPoint => kind = .line ∨ kind = .segment
  | intersectionPoints => kind = .line
  | numberOfPoints | pointAtIndex | toLine => kind = .multiPoint
  | intersection | doesNotIntersect | contains | containsPoint | overlaps | touches | within | area
  | exteriorRing => kind = .polygon
  | toPolygon => false

/-- Whether an operator takes a number of operands: its arity, two for a point or a segment, and any
number of points for the other constructions. -/
def acceptsCount (op : SpatialOp) (kind : GeometryKind) (count : Nat) : Bool :=
  match op.arity?, kind with
  | some arity, _ => count = arity
  | none, .point | none, .segment => count = 2
  | none, _ => true

/-- The kind of the operand at a position. -/
def operandKind (op : SpatialOp) (kind : GeometryKind) (position : Nat) : ValueKind :=
  match op, position with
  | construct, _ => kind.memberKind
  | containsPoint, 1 => .geometry .point
  | pointAtIndex, 1 => .number
  | _, _ => .geometry kind

/-- An operator takes operands of the given kinds. -/
structure Takes (op : SpatialOp) (kind : GeometryKind) (kinds : List ValueKind) : Prop where
  offered : op.offeredFor kind = true
  count : op.acceptsCount kind kinds.length = true
  operand : ∀ i k, kinds[i]? = some k → k = op.operandKind kind i

end SpatialOp

/-- Whether an operator with a result of the given kind takes operands of the given kinds. -/
def ScalarOp.takes (op : ScalarOp) (result : ValueKind) (kinds : List ValueKind) : Bool :=
  match op with
  | add | subtract | multiply | divide | least | greatest =>
    result = .number ∧ kinds = [.number, .number]
  | negate | squareRoot | min | max => result = .number ∧ kinds = [.number]
  | equals | notEquals =>
    result = .boolean ∧
      (kinds = [.number, .number] ∨ kinds = [.text, .text] ∨ kinds = [.boolean, .boolean])
  | lessThan | lessThanOrEqual | greaterThan | greaterThanOrEqual =>
    result = .boolean ∧ kinds = [.number, .number]
  | and | or => result = .boolean ∧ kinds = [.boolean, .boolean]
  | not => result = .boolean ∧ kinds = [.boolean]
  | isNull | isNotNull => result = .boolean ∧ kinds.length = 1
  | count => result = .number ∧ kinds.length = 1
  | case => (result = .number ∨ result = .text) ∧ kinds = [.boolean, result, result]
  | concat => result = .text ∧ ∀ kind ∈ kinds, kind = .text
  | numberToText => result = .text ∧ kinds = [.number]
  | textToNumber | length | ordinate _ => result = .number ∧ kinds = [.text]
  | trim => result = .text ∧ kinds = [.text]
  | replace => result = .text ∧ kinds = [.text, .text, .text]
  | substringBefore | substringAfter => result = .text ∧ kinds = [.text, .text]

variable {α : Type}

namespace Expr

/-- Every node has operands of the kinds its operator takes. -/
inductive WellKinded : Expr α → Prop
  | literal (value : Literal α) : WellKinded (.literal value)
  | column (c : Column) : WellKinded (.column c)
  | absent (kind : ValueKind) : WellKinded (.absent kind)
  | scalar {op : ScalarOp} {kind : ValueKind} {shape : Shape} {operands : List (Expr α)}
      {guarded : Bool} (ht : op.takes kind (operands.map Expr.kind) = true)
      (ho : ∀ e ∈ operands, WellKinded e) :
      WellKinded (.node (.scalar op) kind shape operands guarded)
  | spatial {kind : GeometryKind} {op : SpatialOp} {shape : Shape} {operands : List (Expr α)}
      {guarded : Bool} (ht : op.Takes kind (operands.map Expr.kind))
      (ho : ∀ e ∈ operands, WellKinded e) :
      WellKinded (.node (.spatial kind op) (op.resultKind kind) shape operands guarded)

/-- A well-kinded expression of the given kind. -/
structure HasKind (kind : ValueKind) (e : Expr α) : Prop where
  wellKinded : e.WellKinded
  kind_eq : e.kind = kind

/-- The operands of a well-kinded node are well-kinded. -/
theorem WellKinded.operand {op : Op} {kind : ValueKind} {shape : Shape} {operands : List (Expr α)}
    {guarded : Bool} (h : (node op kind shape operands guarded).WellKinded) {e : Expr α}
    (he : e ∈ operands) : e.WellKinded := by
  cases h with
  | scalar _ ho => exact ho e he
  | spatial _ ho => exact ho e he

/-- A well-kinded spatial node has operands of the kinds its operator takes. -/
theorem WellKinded.takes {kind : GeometryKind} {op : SpatialOp} {valueKind : ValueKind}
    {shape : Shape} {operands : List (Expr α)} {guarded : Bool}
    (h : (node (.spatial kind op) valueKind shape operands guarded).WellKinded) :
    op.Takes kind (operands.map Expr.kind) := by
  cases h with
  | spatial ht _ => exact ht

/-- Expressions of the given kinds, one by one. -/
theorem wellKinded_of_forall₂ {kinds : List ValueKind} {operands : List (Expr α)}
    (h : List.Forall₂ HasKind kinds operands) :
    operands.map Expr.kind = kinds ∧ ∀ e ∈ operands, e.WellKinded := by
  induction h with
  | nil => exact ⟨rfl, fun e he => absurd he List.not_mem_nil⟩
  | cons he _ ih =>
    refine ⟨by rw [List.map_cons, he.kind_eq, ih.1], ?_⟩
    rintro e' (_ | ⟨_, he'⟩)
    · exact he.wellKinded
    · exact ih.2 e' he'

/-- A scalar node over operands of the kinds its operator takes. -/
theorem hasKind_scalar {op : ScalarOp} {kind : ValueKind} {shape : Shape} {kinds : List ValueKind}
    {operands : List (Expr α)} (ht : op.takes kind kinds = true)
    (ho : List.Forall₂ HasKind kinds operands) : HasKind kind (scalar op kind shape operands) := by
  obtain ⟨rfl, hw⟩ := wellKinded_of_forall₂ ho
  exact ⟨.scalar ht hw, rfl⟩

/-- A spatial node over operands of the kinds its operator takes. -/
theorem hasKind_spatial {kind : GeometryKind} {op : SpatialOp} {shape : Shape}
    {kinds : List ValueKind} {operands : List (Expr α)} (ht : op.Takes kind kinds)
    (ho : List.Forall₂ HasKind kinds operands) :
    HasKind (op.resultKind kind) (spatial kind op shape operands) := by
  obtain ⟨rfl, hw⟩ := wellKinded_of_forall₂ ho
  exact ⟨.spatial ht hw, rfl⟩

end Expr

namespace SpatialOp

variable {op : SpatialOp} {kind : GeometryKind}

/-- The first operand of an operator with an arity is the geometry it is offered for. -/
theorem operandKind_zero {arity : Nat} (ha : op.arity? = some arity) :
    op.operandKind kind 0 = .geometry kind := by
  have hop : op ≠ construct := by
    rintro rfl
    contradiction
  simp [operandKind]

/-- The signature of an operator on one geometry. -/
theorem takes_one (hk : op.offeredFor kind = true) (ha : op.arity? = some 1) :
    op.Takes kind [.geometry kind] := by
  refine ⟨hk, by simp [acceptsCount, ha], ?_⟩
  rintro (_ | i) k h
  · rw [operandKind_zero ha]
    exact (Option.some.inj h).symm
  · contradiction

/-- The signature of an operator on two operands. -/
theorem takes_two (hk : op.offeredFor kind = true) (ha : op.arity? = some 2) :
    op.Takes kind [.geometry kind, op.operandKind kind 1] := by
  refine ⟨hk, by simp [acceptsCount, ha], ?_⟩
  rintro (_ | _ | i) k h
  · rw [operandKind_zero ha]
    exact (Option.some.inj h).symm
  · exact (Option.some.inj h).symm
  · contradiction

/-- An operator with an arity accepts that number of operands alone. -/
theorem eq_of_acceptsCount {count arity : Nat} (hc : op.acceptsCount kind count = true)
    (ha : op.arity? = some arity) : count = arity := by
  simpa only [acceptsCount, ha, decide_eq_true_eq] using hc

/-- An operator of arity one has one operand. -/
theorem Takes.exists_one {operands : List (Expr α)} (h : op.Takes kind (operands.map Expr.kind))
    (ha : op.arity? = some 1) : ∃ a, operands = [a] := by
  have hc := eq_of_acceptsCount h.count ha
  rw [List.length_map] at hc
  exact List.length_eq_one_iff.mp hc

/-- An operator of arity two has two operands. -/
theorem Takes.exists_two {operands : List (Expr α)} (h : op.Takes kind (operands.map Expr.kind))
    (ha : op.arity? = some 2) : ∃ a b, operands = [a, b] := by
  have hc := eq_of_acceptsCount h.count ha
  rw [List.length_map] at hc
  exact List.length_eq_two.mp hc

end SpatialOp

end SpatialSql
