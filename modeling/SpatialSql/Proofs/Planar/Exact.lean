import SpatialSql.Geometry.Basic
import Mathlib.Algebra.Order.Field.Rat

/-!
# Exact coordinates

Rational numbers serve as coordinates with their own arithmetic and order, so that every
Boolean comparison decides the comparison it is named for. How such numbers are written,
read and rooted is left open: a `Spelling` says it, and no law is asked of one.
-/

namespace SpatialSql

attribute [ext] Point

/-- Rational arithmetic, without rounding. -/
instance Coordinate.exact : Coordinate ℚ where
  ofInt n := n
  less x y := decide (x < y)
  atMost x y := decide (x ≤ y)
  least := min
  greatest := max
  abs x := |x|
  sign x := if x < 0 then -1 else 1

namespace Coordinate

variable {x y : ℚ}

@[simp] theorem zero_exact : (zero : ℚ) = 0 := Int.cast_zero

@[simp] theorem less_exact : less x y = true ↔ x < y := decide_eq_true_iff

@[simp] theorem atMost_exact : atMost x y = true ↔ x ≤ y := decide_eq_true_iff

@[simp] theorem least_exact : least x y = min x y := rfl

@[simp] theorem greatest_exact : greatest x y = max x y := rfl

@[simp] theorem positive_exact : positive x = true ↔ 0 < x := by
  rw [positive, less_exact, zero_exact]

@[simp] theorem negative_exact : negative x = true ↔ x < 0 := by
  rw [negative, less_exact, zero_exact]

end Coordinate

/-- How the numbers of a type are written and read, which of them count things, and their roots. -/
class Spelling (α : Type) where
  /-- The text of a number. -/
  text : α → String
  /-- The number a whole text denotes. -/
  read? : String → Option α
  /-- The natural number a number stands for. -/
  natural? : α → Option Nat
  /-- The square root of a nonnegative number. -/
  sqrt : α → α

/-- Exact numbers in any spelling. -/
instance Numeral.exact [Spelling ℚ] : Numeral ℚ where
  toCoordinate := Coordinate.exact
  text := Spelling.text
  read? := Spelling.read?
  natural? := Spelling.natural?
  sqrt := Spelling.sqrt

end SpatialSql
