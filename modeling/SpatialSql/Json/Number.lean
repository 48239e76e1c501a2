import SpatialSql.Json.Reader

/-!
# The value of a JSON numeral

A numeral is read as a significand of at most 64 bits and a power of ten: digits
that do not fit are dropped, counting only towards the power. The double is the
significand times or divided by that power, so a long numeral may be off by a unit
in the last place. A numeral beyond the range of doubles has no value.
-/

namespace SpatialSql.Json

/-- Adds digits to a significand while it fits 64 bits; gives back the digits left over. -/
def accumulate (significand : Nat) : List Char → Nat × List Char
  | [] => (significand, [])
  | c :: rest =>
    let next := 10 * significand + (c.toNat - '0'.toNat)
    if next < Nat.pow 2 64 then accumulate next rest else (significand, c :: rest)

/-- A power of ten within the range of doubles. -/
def powerOfTen (e : Nat) : Float := Float.ofScientific 1 false e

/-- A double scaled by a power of ten, in steps that stay in the range of doubles. -/
def scaled? (x : Float) (e : Int) : Option Float :=
  if e.natAbs ≤ 308 then
    if 0 ≤ e then
      let y := x * powerOfTen e.natAbs
      if y.isInf then none else some y
    else some (x / powerOfTen e.natAbs)
  else if x == 0 then some x
  else if 0 ≤ e then none
  else scaled? (x / powerOfTen 308) (e + 308)
  termination_by e.natAbs
  decreasing_by omega

/-- The power of ten an exponent stands for; nothing when it does not fit 32 bits. -/
def smallExponent? (digits : List Char) : Option Nat :=
  let value := Decimal.digitsValue digits
  if value < Nat.pow 2 31 then some value else none

/-- The double of a significand and the power of ten in front of an exponent with a sign. -/
def withExponent? (significand : Nat) (power : Int) (exponent : List Char) : Option Float :=
  let (negative, digits) :=
    match exponent with
    | '-' :: digits => (true, digits)
    | '+' :: digits => (false, digits)
    | digits => (false, digits)
  match smallExponent? digits with
  | some e => scaled? (Float.ofNat significand) (if negative then power - e else power + e)
  | none => if significand = 0 ∨ negative then some 0 else none

/-- The double an unsigned numeral stands for. -/
def magnitude? (numeral : List Char) : Option Float :=
  let (whole, rest) := Decimal.takeDigits numeral
  let (fraction, rest) :=
    match rest with
    | '.' :: rest => Decimal.takeDigits rest
    | rest => ([], rest)
  let (significand, dropped) := accumulate 0 whole
  let (significand, unused) := accumulate significand fraction
  let power : Int := dropped.length - (fraction.length - unused.length : Nat)
  match rest with
  | [] => scaled? (Float.ofNat significand) power
  | _ :: exponent => withExponent? significand power exponent

/-- The double a numeral stands for. -/
def floatOf? (numeral : String) : Option Float :=
  match numeral.toList with
  | '-' :: rest => (magnitude? rest).map fun x => -x
  | rest => magnitude? rest

/-- The integer a numeral without fraction and exponent stands for, if it fits 64 bits with its sign.
A zero with a sign is no integer. -/
def intOf? (numeral : String) : Option Int :=
  match numeral.toList with
  | '-' :: digits =>
    if digits.all Char.isDigit then
      let value := Decimal.digitsValue digits
      if 0 < value ∧ value ≤ Nat.pow 2 63 then some (-value) else none
    else none
  | digits =>
    if digits.all Char.isDigit then
      let value := Decimal.digitsValue digits
      if value < Nat.pow 2 64 then some value else none
    else none

/-- The double behind a value. -/
def float? : Json → Option Float
  | number numeral => floatOf? numeral
  | _ => none

/-- The integer behind a value. -/
def int? : Json → Option Int
  | number numeral => intOf? numeral
  | _ => none

end SpatialSql.Json
