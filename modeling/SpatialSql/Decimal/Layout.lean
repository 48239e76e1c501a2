import SpatialSql.Decimal.Shortest

/-!
# Number text

One printer for doubles, driven by a small record of decisions: which powers of
ten are written out, whether a whole number keeps a fraction, and which way ties
between equally short decimals go. The two layouts in use are `plain`, which never
uses an exponent, and `json`, which always marks a number as fractional.
-/

namespace SpatialSql.Decimal

/-- The decisions of a number format. -/
structure Layout where
  /-- Whether a number whose leading digit stands for `10^e` is written out in full. -/
  positional : Int → Bool
  /-- Whether a whole number written out in full ends in `.0`. -/
  wholeMark : Bool
  /-- Which of two equally near shortest decimals is written. -/
  tie : Tie

/-- Every number in full, whole numbers without a fraction. -/
def plain : Layout where
  positional _ := true
  wholeMark := false
  tie := .up

/-- Written out from `10^-5` up to below `10^16`, else with a signed exponent. -/
def json : Layout where
  positional e := decide (-5 ≤ e ∧ e < 16)
  wholeMark := true
  tie := .even

/-- `count` zeros. -/
def zeros (count : Nat) : List Char := List.replicate count '0'

/-- The digits with a point after the first `point` of them, padded with zeros on either side. -/
def pointed (wholeMark : Bool) (digits : List Char) (point : Int) : List Char :=
  if point ≤ 0 then '0' :: '.' :: zeros (-point).toNat ++ digits
  else if digits.length ≤ point.toNat then
    digits ++ zeros (point.toNat - digits.length) ++ (if wholeMark then ['.', '0'] else [])
  else digits.take point.toNat ++ '.' :: digits.drop point.toNat

/-- The digits with a point after the first one, followed by the exponent `e`. -/
def scientific (digits : List Char) (e : Int) : List Char :=
  let fraction := if digits.length ≤ 1 then [] else '.' :: digits.drop 1
  let sign := if 0 ≤ e then '+' else '-'
  digits.take 1 ++ fraction ++ 'e' :: sign :: Nat.toDigits 10 e.natAbs

/-- The digits of a positive dyadic and the power of ten its leading digit stands for, laid out. -/
def Layout.magnitudeText (layout : Layout) (d : Dyadic) : List Char :=
  let shortest := (d.shortest layout.tie).trim 17
  let digits := Nat.toDigits 10 shortest.coefficient
  let point := shortest.exponent + digits.length
  if layout.positional (point - 1) then pointed layout.wholeMark digits point
  else scientific digits (point - 1)

/-- The text of a finite double. -/
def Layout.dyadicText (layout : Layout) (d : Dyadic) : List Char :=
  let sign := if d.negative then ['-'] else []
  if d.mantissa = 0 then sign ++ pointed layout.wholeMark ['0'] 1
  else sign ++ layout.magnitudeText d

/-- The text of a double; `NaN` and the infinities have names. -/
def Layout.text (layout : Layout) (x : Float) : String :=
  match Reading.of x with
  | .finite d => String.ofList (layout.dyadicText d)
  | .infinite false => "inf"
  | .infinite true => "-inf"
  | .nan => "NaN"

/-- Coordinate text: the plain layout, where a zero never shows a sign. -/
def coordinateText (x : Float) : String :=
  if x == 0 then "0" else plain.text x

end SpatialSql.Decimal
