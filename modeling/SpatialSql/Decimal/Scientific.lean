/-!
# Decimals in scientific form
-/

namespace SpatialSql.Decimal

/-- An unsigned decimal `coefficient · 10^exponent`. -/
structure Scientific where
  coefficient : Nat
  exponent : Int
  deriving DecidableEq, Repr

/-- Moves trailing zeros of the coefficient into the exponent, at most `fuel` of them. -/
def Scientific.trim (x : Scientific) : Nat → Scientific
  | 0 => x
  | fuel + 1 =>
    if x.coefficient % 10 = 0 ∧ x.coefficient ≠ 0 then
      Scientific.trim ⟨x.coefficient / 10, x.exponent + 1⟩ fuel
    else x

end SpatialSql.Decimal
