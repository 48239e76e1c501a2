import SpatialSql.Decimal.Layout
import SpatialSql.Decimal.Numeral
import SpatialSql.Text.Blank

/-!
# Numbers that serve as coordinates

Geometry and expressions are written over any number type with field operations
and Boolean comparisons. No law is part of the class: doubles are an instance, with
comparisons that a NaN always fails, and so is every exactly ordered field.
-/

namespace SpatialSql

/-- The operations of a coordinate type. -/
class Coordinate (α : Type) extends Add α, Sub α, Mul α, Div α, Neg α, BEq α where
  /-- The number nearest to an integer. -/
  ofInt : Int → α
  /-- Strictly smaller. -/
  less : α → α → Bool
  /-- Smaller or equal. -/
  atMost : α → α → Bool
  /-- The smaller of two numbers; an undefined operand is ignored. -/
  least : α → α → α
  /-- The larger of two numbers; an undefined operand is ignored. -/
  greatest : α → α → α
  /-- The distance from zero. -/
  abs : α → α
  /-- One or minus one, by the side of zero a number lies on; zero itself counts as positive unless
  it carries a sign of its own. -/
  sign : α → α

/-- What the scalar expressions need beyond arithmetic: text, whole numbers and square roots. -/
class Numeral (α : Type) extends Coordinate α where
  /-- The decimal text of a number. -/
  text : α → String
  /-- The number a whole text denotes. -/
  read? : String → Option α
  /-- The natural number a number stands for. -/
  natural? : α → Option Nat
  /-- The square root of a nonnegative number. -/
  sqrt : α → α

namespace Coordinate

variable {α : Type} [Coordinate α]

/-- Zero. -/
def zero : α := ofInt 0

/-- The number that counts `n` things. -/
def ofNat (n : Nat) : α := ofInt n

/-- Strictly positive. -/
def positive (x : α) : Bool := less zero x

/-- Strictly negative. -/
def negative (x : α) : Bool := less x zero

/-- The sum of a list, added up from the left. -/
def sum : List α → α
  | [] => zero
  | x :: rest => rest.foldl (· + ·) x

end Coordinate

/-- The smaller of two doubles, or the one that is not NaN; the first of two equal ones. -/
def Decimal.lesser (x y : Float) : Float :=
  if x.isNaN then y else if y.isNaN then x else if y < x then y else x

/-- The larger of two doubles, or the one that is not NaN; the first of two equal ones. -/
def Decimal.larger (x y : Float) : Float :=
  if x.isNaN then y else if y.isNaN then x else if x < y then y else x

/-- One with the sign bit of a double; NaN stays NaN. -/
def Decimal.signUnit (x : Float) : Float :=
  if x.isNaN then x else if Nat.pow 2 63 ≤ x.toBits.toNat then -1 else 1

instance : Numeral Float where
  ofInt := Float.ofInt
  less x y := decide (x < y)
  atMost x y := decide (x ≤ y)
  least := Decimal.lesser
  greatest := Decimal.larger
  abs := Float.abs
  sign := Decimal.signUnit
  text := Decimal.coordinateText
  read? text := Decimal.float? text.toList
  natural? := Decimal.natural?
  sqrt := Float.sqrt

end SpatialSql
