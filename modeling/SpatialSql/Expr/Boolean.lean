import SpatialSql.Expr.Basic

/-!
# Truth-valued expressions

Builders for comparisons, connectives, null tests and case distinctions. A builder
decides at once what its literal operands settle, and hands back the other operand
where a literal is neutral; a null test is never decided.
-/

namespace SpatialSql

/-- The outcome of a comparison operator, from the tests of equality and order. -/
def ScalarOp.outcome? {β : Type} (op : ScalarOp) (equal less atMost : β → β → Bool) (a b : β) :
    Option Bool :=
  match op with
  | .equals => some (equal a b)
  | .notEquals => some (!equal a b)
  | .lessThan => some (less a b)
  | .lessThanOrEqual => some (atMost a b)
  | .greaterThan => some (less b a)
  | .greaterThanOrEqual => some (atMost b a)
  | _ => none

namespace Expr

variable {α : Type}

/-- Whether the expression is null. -/
def isNull (e : Expr α) : Expr α := scalar .isNull .boolean .unary [e]

/-- Whether the expression has a value. -/
def isNotNull (e : Expr α) : Expr α := scalar .isNotNull .boolean .unary [e]

/-- The outcome of a comparison of two literals: of numbers, texts or truth values. -/
def compareLiterals? [Coordinate α] (op : ScalarOp) (a b : Expr α) : Option Bool :=
  match a, b with
  | literal (.number x), literal (.number y) =>
    op.outcome? (· == ·) Coordinate.less Coordinate.atMost x y
  | literal (.text s), literal (.text t) =>
    op.outcome? (fun s t => decide (s = t)) (fun s t => decide (s < t))
      (fun s t => decide (s ≤ t)) s t
  | literal (.bool p), literal (.bool q) =>
    op.outcome? (· == ·) (fun p q => !p && q) (fun p q => !p || q) p q
  | _, _ => none

/-- A comparison of two expressions. -/
def compare [Coordinate α] (op : ScalarOp) (a b : Expr α) : Expr α :=
  match compareLiterals? op a b with
  | some outcome => bool outcome
  | none => scalar op .boolean .binary [a, b]

/-- A connective of two conditions: one literal is neutral and leaves the other condition, and the
opposite one settles the outcome. -/
def connective (op : ScalarOp) (neutral : Bool) (a b : Expr α) : Expr α :=
  if a.bool? = some !neutral ∨ b.bool? = some !neutral then bool !neutral
  else if a.bool? = some neutral then b
  else if b.bool? = some neutral then a
  else scalar op .boolean .binary [a, b]

/-- Both conditions hold. -/
def and (a b : Expr α) : Expr α := connective .and true a b

/-- One of the conditions holds. -/
def or (a b : Expr α) : Expr α := connective .or false a b

/-- The condition fails. -/
def not (a : Expr α) : Expr α :=
  match a.bool? with
  | some value => bool !value
  | none => scalar .not .boolean .unary [a]

/-- All conditions hold. -/
def all (conditions : List (Expr α)) : Expr α := conditions.foldl and (bool true)

/-- One of the conditions holds. -/
def any (conditions : List (Expr α)) : Expr α := conditions.foldl or (bool false)

/-- The first value where the condition holds, else the second; the kind is that of the first. -/
def caseWhen (condition value otherwise : Expr α) : Expr α :=
  match condition.bool? with
  | some true => value
  | some false => otherwise
  | none => scalar .case value.kind .ternary [condition, value, otherwise]

section Comparison

variable [Coordinate α]

/-- The values are equal. -/
def isEqual (a b : Expr α) : Expr α := compare .equals a b

/-- The values differ. -/
def isNotEqual (a b : Expr α) : Expr α := compare .notEquals a b

/-- The first value is smaller. -/
def isLess (a b : Expr α) : Expr α := compare .lessThan a b

/-- The first value is smaller, or they are equal. -/
def isAtMost (a b : Expr α) : Expr α := compare .lessThanOrEqual a b

/-- The first value is larger. -/
def isGreater (a b : Expr α) : Expr α := compare .greaterThan a b

/-- The first value is larger, or they are equal. -/
def isAtLeast (a b : Expr α) : Expr α := compare .greaterThanOrEqual a b

end Comparison

end Expr

end SpatialSql
