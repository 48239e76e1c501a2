/-!
# Binary floating point numbers taken apart

A finite double is a signed natural mantissa times a power of two. The parts are
read from the stored bits, so everything said about them is exact natural number
arithmetic; no rounding operation is involved.
-/

namespace SpatialSql.Decimal

/-- A finite double: `(-1)^negative · mantissa · 2^exponent`. -/
structure Dyadic where
  /-- The sign bit; a zero may carry it. -/
  negative : Bool
  /-- The whole significand, hidden bit included. -/
  mantissa : Nat
  /-- The power of two that scales the mantissa. -/
  exponent : Int
  /-- The next double towards zero is only half as far away as the next one outwards. -/
  narrowBelow : Bool
  deriving DecidableEq, Repr

/-- What a double stands for. -/
inductive Reading where
  /-- A number, zeros of either sign included. -/
  | finite (value : Dyadic)
  /-- An infinity of the given sign. -/
  | infinite (negative : Bool)
  /-- Not a number. -/
  | nan
  deriving DecidableEq, Repr

/-- The number that the stored bits of a double describe. -/
def Reading.ofBits (bits : Nat) : Reading :=
  let negative := decide (Nat.pow 2 63 ≤ bits % Nat.pow 2 64)
  let biased : Nat := bits / Nat.pow 2 52 % Nat.pow 2 11
  let fraction : Nat := bits % Nat.pow 2 52
  if biased = Nat.pow 2 11 - 1 then
    if fraction = 0 then .infinite negative else .nan
  else if biased = 0 then
    .finite ⟨negative, fraction, -1074, false⟩
  else
    .finite ⟨negative, Nat.pow 2 52 + fraction, (biased : Int) - 1075, decide (fraction = 0 ∧ 1 < biased)⟩

/-- The parts of a double. -/
def Reading.of (x : Float) : Reading := .ofBits x.toBits.toNat

/-- The natural number a dyadic stands for, when it is one; both zeros are `0`. -/
def Dyadic.toNat? (d : Dyadic) : Option Nat :=
  if d.negative ∧ d.mantissa ≠ 0 then none
  else if 0 ≤ d.exponent then some (d.mantissa * Nat.pow 2 d.exponent.toNat)
  else
    let scale := Nat.pow 2 (-d.exponent).toNat
    if d.mantissa % scale = 0 then some (d.mantissa / scale) else none

/-- The natural number a double stands for; fractions, negatives and the special values have none. -/
def natural? (x : Float) : Option Nat :=
  match Reading.of x with
  | .finite d => d.toNat?
  | _ => none

end SpatialSql.Decimal
