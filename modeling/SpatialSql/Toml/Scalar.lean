import SpatialSql.Decimal.Numeral
import SpatialSql.Toml.Basic
import SpatialSql.Toml.Text

/-!
# TOML numbers and moments

Integers have 64 bits with a sign, and a decimal one has no leading zero. Single
underscores may divide digits. Dates are checked against the calendar, with leap
seconds allowed.
-/

namespace SpatialSql.Toml.Scan

/-- Digits divided by single underscores, which are dropped. -/
def digitsFrom (accept : Char → Bool) : List Char → List Char × List Char
  | [] => ([], [])
  | '_' :: c :: rest =>
    if accept c then
      let (digits, rest) := digitsFrom accept rest
      (c :: digits, rest)
    else ([], '_' :: c :: rest)
  | c :: rest =>
    if accept c then
      let (digits, rest) := digitsFrom accept rest
      (c :: digits, rest)
    else ([], c :: rest)

/-- A digit and those that follow it. -/
def digits (accept : Char → Bool) : Scan (List Char) := do
  let c ← one accept
  return c :: (← fun text => some (digitsFrom accept text))

/-- A sign, if there is one. -/
def sign : Scan (List Char) := do
  if ← accepts "-" then return ['-']
  if ← accepts "+" then return ['+']
  return []

/-- The digits of a decimal integer: a zero alone, or digits that start with none. -/
def wholeDigits : Scan (List Char) := do
  if ← accepts "0" then return ['0']
  digits Char.isDigit

/-- An exponent, if there is one. -/
def exponent : Scan (List Char) := do
  if ← (one (fun c => c == 'e' || c == 'E') *> pure true) <|> pure false then
    let sign ← sign
    return 'e' :: sign ++ (← digits Char.isDigit)
  return []

/-- A number with a fraction or an exponent; one too large for a double is refused. -/
def decimal : Scan Toml := do
  let sign ← sign
  let whole ← wholeDigits
  let fraction ← if ← accepts "." then ('.' :: ·) <$> digits Char.isDigit else pure []
  let exponent ← exponent
  if fraction.isEmpty && exponent.isEmpty then failure
  match Decimal.float? (sign ++ whole ++ fraction ++ exponent) with
  | some value => if value == 1 / 0 then failure else return .float value
  | none => failure

/-- An infinity or a missing number. -/
def special : Scan Toml := do
  let sign ← sign
  let magnitude : Float ← (word "inf" *> pure (1 / 0)) <|> (word "nan" *> pure (0 / 0))
  return .float (if sign = ['-'] then -magnitude else magnitude)

/-- The digits of an integer in a base other than ten. -/
def based (base : Nat) : Scan Toml := do
  let valueOf (c : Char) : Option Nat := (Text.hexDigit? c).filter (· < base)
  let digits ← digits fun c => (valueOf c).isSome
  let value := digits.foldl (fun value c => base * value + (valueOf c).getD 0) 0
  if value < Nat.pow 2 63 then return .integer value else failure

/-- An integer. -/
def integer : Scan Toml := do
  if ← accepts "0x" then based 16
  else if ← accepts "0o" then based 8
  else if ← accepts "0b" then based 2
  else do
    let sign ← sign
    let value : Int := Decimal.digitsValue (← wholeDigits)
    let value := if sign = ['-'] then -value else value
    if -Int.pow 2 63 ≤ value ∧ value < Int.pow 2 63 then return .integer value else failure

/-- A fixed number of digits whose value lies in a range. -/
def ranged (count low high : Nat) : Scan Nat := fun text =>
  let digits := text.take count
  let value := Decimal.digitsValue digits
  if digits.length = count ∧ digits.all Char.isDigit ∧ low ≤ value ∧ value ≤ high then
    some (value, text.drop count)
  else none

/-- The number of days of a month. -/
def daysIn (year month : Nat) : Nat :=
  match month with
  | 2 => if year % 4 = 0 ∧ (year % 100 ≠ 0 ∨ year % 400 = 0) then 29 else 28
  | 4 | 6 | 9 | 11 => 30
  | _ => 31

/-- A calendar date. -/
def date : Scan Unit := do
  let year ← ranged 4 0 9999
  word "-"
  let month ← ranged 2 1 12
  word "-"
  let _ ← ranged 2 1 (daysIn year month)

/-- A time of day. -/
def timeOfDay : Scan Unit := do
  let _ ← ranged 2 0 23
  word ":"
  let _ ← ranged 2 0 59
  word ":"
  let _ ← ranged 2 0 60
  if ← accepts "." then
    let _ ← one Char.isDigit
    let _ ← many Char.isDigit

/-- A distance from universal time. -/
def offset : Scan Unit := do
  let mark ← one fun c => c == 'Z' || c == 'z' || c == '+' || c == '-'
  if mark = '+' ∨ mark = '-' then
    let _ ← ranged 2 0 23
    word ":"
    let _ ← ranged 2 0 59

/-- A time of day after a date, with an offset if there is one. -/
def timeAfterDate : Scan Unit := do
  let _ ← one fun c => c == 'T' || c == 't' || c == ' '
  timeOfDay
  offset <|> pure ()

/-- A date, a time of day or both. -/
def moment : Scan Toml := do
  (do date; timeAfterDate <|> pure ()) <|> timeOfDay
  return .moment

/-- A value that starts with a sign or a digit, an infinity or a missing number. -/
def number : Scan Toml := moment <|> decimal <|> special <|> integer

end SpatialSql.Toml.Scan
