import SpatialSql.Text.Search
import SpatialSql.Decimal.Numeral

/-!
# SQL templates

A template is text with placeholders in braces: an operand by its index, or a star
for all operands. A brace that closes nothing is text. Substitution is simultaneous,
so operands are never searched for placeholders.
-/

namespace SpatialSql

/-- A part of a template. -/
inductive TemplatePiece where
  | text (content : List Char)
  /-- The operand at an index. -/
  | operand (index : Nat)
  /-- Every operand, separated by commas. -/
  | operands
  deriving DecidableEq, Repr

/-- Why a text is no template. -/
inductive TemplateFault where
  /-- A brace that opens a placeholder is never closed. -/
  | unclosed
  /-- A placeholder is neither an index nor a star. -/
  | malformed (content : String)
  /-- A placeholder names an operand the operation does not take. -/
  | beyondArity (index arity : Nat)
  deriving DecidableEq, Repr

/-- The wording of a fault. -/
def TemplateFault.reason : TemplateFault → String
  | unclosed => "unclosed placeholder"
  | malformed content => "bad placeholder '\x7b" ++ content ++ "\x7d'"
  | beyondArity index arity =>
    "placeholder \x7b" ++ toString index ++ "\x7d but the operation takes " ++ toString arity ++
      " operand(s)"

/-- A template, as its parts from left to right. -/
abbrev Template := List TemplatePiece

namespace Template

/-- The index a placeholder names: digits after an optional plus sign, of at most 64 bits. -/
def index? (content : List Char) : Option Nat :=
  let digits :=
    match content with
    | '+' :: digits => digits
    | digits => digits
  if digits ≠ [] ∧ digits.all Char.isDigit then
    let index := Decimal.digitsValue digits
    if index < Nat.pow 2 64 then some index else none
  else none

/-- Reads the content of a placeholder, blanks at its ends removed. -/
def placeholder (arity? : Option Nat) (content : List Char) : Except TemplateFault TemplatePiece :=
  if content = ['*'] then .ok .operands
  else
    match index? content with
    | none => .error (.malformed (String.ofList content))
    | some index =>
      match arity? with
      | some arity => if index < arity then .ok (.operand index) else .error (.beyondArity index arity)
      | none => .ok (.operand index)

/-- Reads a template for an operation with a known or open number of operands. -/
def parse (arity? : Option Nat) (text : List Char) : Except TemplateFault Template :=
  match _h : Text.cut? ['\x7b'] text with
  | none => .ok [.text text]
  | some (before, opened) =>
    match _h' : Text.cut? ['\x7d'] opened with
    | none => .error .unclosed
    | some (content, rest) => do
      let piece ← placeholder arity? (Text.trimmed content)
      let pieces ← parse arity? rest
      return .text before :: piece :: pieces
  termination_by text.length
  decreasing_by
    exact Nat.lt_trans (Text.cut?_length_lt _h' (by simp)) (Text.cut?_length_lt _h (by simp))

/-- The SQL of a template, or nothing when an operand is missing. -/
def render (operands : List String) : Template → Option String
  | [] => some ""
  | piece :: pieces => do
    let sql ←
      match piece with
      | .text content => some (String.ofList content)
      | .operand index => operands[index]?
      | .operands => some (String.intercalate ", " operands)
    let rest ← render operands pieces
    return sql ++ rest

end Template

end SpatialSql
