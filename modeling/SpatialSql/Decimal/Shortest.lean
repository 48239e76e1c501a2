import SpatialSql.Decimal.Dyadic
import SpatialSql.Decimal.Scientific

/-!
# The shortest decimal that reads back

Of all decimals that round to a given double, the ones with the fewest digits are
kept, and of those the one nearest to the exact value. On each decimal grid only
the two neighbours of the value can qualify, so the search tests those two, from
the coarsest grid to the finest. Where both are equally near, `Tie` decides.
-/

namespace SpatialSql.Decimal

/-- Which of two equally near neighbours on a decimal grid is taken. -/
inductive Tie where
  /-- The larger one. -/
  | up
  /-- The one with an even last digit. -/
  | even
  deriving DecidableEq, Repr

/-- The number of decimal digits of a natural number; `0` has one. -/
def digitCount (n : Nat) : Nat := (Nat.toDigits 10 n).length

/-- The `e` with `10^(e-1) ≤ num/den < 10^e`, for a positive fraction. -/
def magnitude (num den : Nat) : Int :=
  if den ≤ num then digitCount (num / den)
  else 1 - (digitCount ((den + num - 1) / num - 1) : Int)

/-- The reals that round to one double, as fractions over a common denominator. -/
structure Window where
  /-- The lower end. -/
  low : Nat
  /-- The double itself. -/
  value : Nat
  /-- The upper end. -/
  high : Nat
  /-- The common denominator. -/
  scale : Nat
  /-- The ends round to the double as well. -/
  closed : Bool
  deriving Repr

/-- The window of a positive dyadic: half way to each neighbour, ends included for an even mantissa. -/
def Dyadic.window (d : Dyadic) : Window :=
  let unit := Nat.pow 2 (d.exponent - 2).toNat
  let below := if d.narrowBelow then 1 else 2
  { low := (4 * d.mantissa - below) * unit
    value := 4 * d.mantissa * unit
    high := (4 * d.mantissa + 2) * unit
    scale := Nat.pow 2 (2 - d.exponent).toNat
    closed := d.mantissa % 2 = 0 }

/-- Whether `n · 10^grid` lies in the window. -/
def Window.holds (w : Window) (grid : Int) (n : Nat) : Bool :=
  let position := n * w.scale * Nat.pow 10 grid.toNat
  let low := w.low * Nat.pow 10 (-grid).toNat
  let high := w.high * Nat.pow 10 (-grid).toNat
  if w.closed then decide (low ≤ position ∧ position ≤ high)
  else decide (low < position ∧ position < high)

/-- The better neighbour of the value on the grid `10^grid`, if one lies in the window. -/
def Window.onGrid (w : Window) (tie : Tie) (grid : Int) : Option Scientific :=
  let step := w.scale * Nat.pow 10 grid.toNat
  let scaled := w.value * Nat.pow 10 (-grid).toNat
  let below := scaled / step
  let rest := scaled % step
  let nearer :=
    match compare (2 * rest) step with
    | .lt => below
    | .gt => below + 1
    | .eq => if tie = .up ∨ below % 2 = 1 then below + 1 else below
  match w.holds grid below, w.holds grid (below + 1) with
  | true, true => some ⟨nearer, grid⟩
  | true, false => some ⟨below, grid⟩
  | false, true => some ⟨below + 1, grid⟩
  | false, false => none

/-- The shortest decimal in the window of a positive dyadic; seventeen digits always suffice. -/
def Dyadic.shortest (d : Dyadic) (tie : Tie) : Scientific :=
  let w := d.window
  let top := magnitude w.value w.scale
  ((List.range 17).findSome? fun (n : Nat) => w.onGrid tie (top - 1 - n)).getD ⟨0, 0⟩

end SpatialSql.Decimal
