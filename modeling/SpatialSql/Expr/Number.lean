import SpatialSql.Expr.Boolean

/-!
# Numeric expressions

Builders for arithmetic. Literal operands are computed at once, except a division
by zero and the root of a negative number, which are left to the database.
-/

namespace SpatialSql.Expr

open Coordinate

variable {α : Type}

/-- A numeric operator on two operands, computed when both are literals and `fold` allows it. -/
def arithmetic (op : ScalarOp) (fold : α → α → Option α) (a b : Expr α) : Expr α :=
  match a.number?, b.number? with
  | some x, some y =>
    match fold x y with
    | some z => number z
    | none => scalar op .number .binary [a, b]
  | _, _ => scalar op .number .binary [a, b]

/-- A numeric operator on one operand, computed when it is a literal and `fold` allows it. -/
def arithmetic₁ (op : ScalarOp) (fold : α → Option α) (a : Expr α) : Expr α :=
  match a.number?.bind fold with
  | some z => number z
  | none => scalar op .number .unary [a]

section Arithmetic

variable [Coordinate α]

/-- The sum. -/
def plus (a b : Expr α) : Expr α := arithmetic .add (fun x y => some (x + y)) a b

/-- The difference. -/
def minus (a b : Expr α) : Expr α := arithmetic .subtract (fun x y => some (x - y)) a b

/-- The product. -/
def times (a b : Expr α) : Expr α := arithmetic .multiply (fun x y => some (x * y)) a b

/-- The quotient; a literal zero divisor is left to the database. -/
def dividedBy (a b : Expr α) : Expr α :=
  arithmetic .divide (fun x y => if y == zero then none else some (x / y)) a b

/-- The square. -/
def squared (a : Expr α) : Expr α := times a a

/-- The number with the opposite sign. -/
def negate (a : Expr α) : Expr α := arithmetic₁ .negate (fun x => some (-x)) a

/-- The smaller of two numbers. -/
def least (a b : Expr α) : Expr α := arithmetic .least (fun x y => some (Coordinate.least x y)) a b

/-- The larger of two numbers. -/
def greatest (a b : Expr α) : Expr α :=
  arithmetic .greatest (fun x y => some (Coordinate.greatest x y)) a b

end Arithmetic

/-- The square root; a literal negative number is left to the database. -/
def sqrt [Numeral α] (a : Expr α) : Expr α :=
  arithmetic₁ .squareRoot (fun x => if atMost zero x then some (Numeral.sqrt x) else none) a

/-- The decimal text of a number. -/
def toText [Numeral α] (a : Expr α) : Expr α :=
  match a.number? with
  | some x => text (Numeral.text x)
  | none => scalar .numberToText .text .unary [a]

/-- The smallest value in a group. -/
def minimum (a : Expr α) : Expr α := scalar .min .number .unary [a]

/-- The largest value in a group. -/
def maximum (a : Expr α) : Expr α := scalar .max .number .unary [a]

/-- The number of values in a group that are not null. -/
def count (a : Expr α) : Expr α := scalar .count .number .unary [a]

end SpatialSql.Expr
