import SpatialSql.Expr.Geometry

/-!
# Shared nodes

Equal expressions may be different nodes. A handle is an expression with a mark of
the node at its root: a copy keeps the mark, and so does a builder that hands back
one of its operands; a builder that makes a node takes a fresh mark.
-/

namespace SpatialSql

/-- An expression with the mark of its root node; the mark of a leaf says nothing. -/
structure Handle (α : Type) where
  expr : Expr α
  mark : Nat

namespace Handle

variable {α : Type}

/-- Both handles name the same node; leaves are never the same node. -/
def sameNode (a b : Handle α) : Bool :=
  match a.expr, b.expr with
  | .node .., .node .. => a.mark == b.mark
  | _, _ => false

/-- A handle that is a literal truth value. -/
def isDecided (a : Handle α) : Bool := a.expr.bool?.isSome

/-- The mark of a connective: that of the operand it hands back, if any. -/
def connectiveMark (fresh : Nat) (a b : Handle α) : Nat :=
  if a.isDecided then b.mark else if b.isDecided then a.mark else fresh

/-- Both conditions hold. -/
def and (fresh : Nat) (a b : Handle α) : Handle α :=
  ⟨a.expr.and b.expr, connectiveMark fresh a b⟩

/-- One of the conditions holds. -/
def or (fresh : Nat) (a b : Handle α) : Handle α :=
  ⟨a.expr.or b.expr, connectiveMark fresh a b⟩

/-- All conditions hold. -/
def all (fresh : Nat) (conditions : List (Handle α)) : Handle α :=
  conditions.foldl (and fresh) ⟨.bool true, fresh⟩

/-- One of the conditions holds. -/
def any (fresh : Nat) (conditions : List (Handle α)) : Handle α :=
  conditions.foldl (or fresh) ⟨.bool false, fresh⟩

/-- The first value where the condition holds, else the second. -/
def caseWhen (fresh : Nat) (condition value otherwise : Handle α) : Handle α :=
  match condition.expr.bool? with
  | some true => value
  | some false => otherwise
  | none => ⟨.caseWhen condition.expr value.expr otherwise.expr, fresh⟩

/-- The concatenation of all parts; a single one is handed back unless it is a concatenation. -/
def concatAll (fresh : Nat) (parts : List (Handle α)) : Handle α :=
  match parts with
  | [⟨.node (.scalar .concat) kind shape operands guarded, _⟩] =>
    ⟨.concatAll [.node (.scalar .concat) kind shape operands guarded], fresh⟩
  | [part] => part
  | parts => ⟨.concatAll (parts.map expr), fresh⟩

/-- The bounding box of a geometry; a box is its own. -/
def boundingBox (fresh : Nat) (kind : GeometryKind) (g : Handle α) : Handle α :=
  if g.expr.isBox then g else ⟨.boundingBox kind g.expr, fresh⟩

/-- A conjunction is the conjunction of the expressions. -/
@[simp] theorem expr_and (fresh : Nat) (a b : Handle α) :
    (and fresh a b).expr = a.expr.and b.expr := rfl

/-- A disjunction is the disjunction of the expressions. -/
@[simp] theorem expr_or (fresh : Nat) (a b : Handle α) :
    (or fresh a b).expr = a.expr.or b.expr := rfl

/-- A case distinction is that of the expressions. -/
@[simp] theorem expr_caseWhen (fresh : Nat) (condition value otherwise : Handle α) :
    (caseWhen fresh condition value otherwise).expr =
      .caseWhen condition.expr value.expr otherwise.expr := by
  unfold caseWhen
  split <;> simp_all [Expr.caseWhen]

/-- A bounding box is that of the expression. -/
@[simp] theorem expr_boundingBox (fresh : Nat) (kind : GeometryKind) (g : Handle α) :
    (boundingBox fresh kind g).expr = .boundingBox kind g.expr := by
  unfold boundingBox
  split <;> simp_all [Expr.boundingBox]

end Handle

end SpatialSql
