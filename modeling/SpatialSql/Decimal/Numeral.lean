import SpatialSql.Decimal.Scientific

/-!
# Reading decimal numerals

A numeral is an optional sign, digits with at most one point and at least one
digit in all, and an optional exponent; the names `inf`, `infinity` and `nan` are
read in any case. Reading rounds to the nearest double.
-/

namespace SpatialSql.Decimal

/-- Splits off the leading decimal digits. -/
def takeDigits (text : List Char) : List Char × List Char := text.span Char.isDigit

/-- The value of a digit string. -/
def digitsValue (digits : List Char) : Nat :=
  digits.foldl (fun value c => 10 * value + (c.toNat - '0'.toNat)) 0

/-- A signed run of digits that takes up all of the text. -/
def integer? (text : List Char) : Option Int :=
  let unsigned (digits : List Char) : Option Nat :=
    if digits ≠ [] ∧ digits.all Char.isDigit then some (digitsValue digits) else none
  match text with
  | '+' :: rest => (unsigned rest).map Int.ofNat
  | '-' :: rest => (unsigned rest).map fun n => -(n : Int)
  | rest => (unsigned rest).map Int.ofNat

/-- An unsigned numeral that takes up all of the text. -/
def scientific? (text : List Char) : Option Scientific :=
  let (whole, rest) := takeDigits text
  let (fraction, rest) :=
    match rest with
    | '.' :: rest => takeDigits rest
    | rest => ([], rest)
  let coefficient := digitsValue (whole ++ fraction)
  let exponent : Int := -fraction.length
  if whole = [] ∧ fraction = [] then none
  else
    match rest with
    | [] => some ⟨coefficient, exponent⟩
    | mark :: power =>
      if mark = 'e' ∨ mark = 'E' then
        (integer? power).map fun e => ⟨coefficient, exponent + e⟩
      else none

/-- The double nearest to a numeral. Powers of ten far outside the range of doubles are cut off
before any large power is computed. -/
def Scientific.toFloat (s : Scientific) : Float :=
  let digits : Int := (Nat.toDigits 10 s.coefficient).length
  if s.coefficient = 0 then 0
  else if 400 < s.exponent + digits then 1 / 0
  else if s.exponent + digits < -400 then 0
  else Float.ofScientific s.coefficient (s.exponent < 0) s.exponent.natAbs

/-- The magnitude a text without a sign names. -/
def magnitude? (text : List Char) : Option Float :=
  let lower := text.map Char.toLower
  if lower = "inf".toList ∨ lower = "infinity".toList then some (1 / 0)
  else if lower = "nan".toList then some (0 / 0)
  else (scientific? text).map Scientific.toFloat

/-- Reads a whole text as a double. -/
def float? (text : List Char) : Option Float :=
  match text with
  | '-' :: rest => (magnitude? rest).map fun x => -x
  | '+' :: rest => magnitude? rest
  | rest => magnitude? rest

end SpatialSql.Decimal
