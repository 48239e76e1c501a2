import SpatialSql.Expr.Number
import SpatialSql.Text.Search

/-!
# Text expressions

Builders for text. Concatenations are flattened and their adjacent literals merged,
so a concatenation of literals is a literal. Literal operands of the other builders
are computed at once.
-/

namespace SpatialSql.Expr

open Coordinate

variable {α : Type}

/-- The parts an expression brings to a concatenation: the operands of a concatenation, or itself. -/
def concatParts : Expr α → List (Expr α)
  | node (.scalar .concat) _ _ operands _ => operands
  | e => [e]

/-- Adds a part in front of merged parts, joining it with a literal there. -/
def consPart (part : Expr α) (parts : List (Expr α)) : List (Expr α) :=
  match part, parts with
  | literal (.text s), literal (.text t) :: rest => text (s ++ t) :: rest
  | _, _ => part :: parts

/-- Merges adjacent literal texts. -/
def mergeParts (parts : List (Expr α)) : List (Expr α) := parts.foldr consPart []

/-- The concatenation of all parts. -/
def concatAll (parts : List (Expr α)) : Expr α :=
  match mergeParts (parts.flatMap concatParts) with
  | [] => text ""
  | [part] => part
  | merged => scalar .concat .text .nary merged

/-- The concatenation of two texts. -/
def concat (a b : Expr α) : Expr α := concatAll [a, b]

/-- The text before the first occurrence of a delimiter; empty when there is none. -/
def substringBefore (a : Expr α) (delimiter : String) : Expr α :=
  match a.text? with
  | some s => text (String.ofList (Text.before delimiter.toList s.toList))
  | none => scalar .substringBefore .text .binary [a, text delimiter]

/-- The text after the first occurrence of a delimiter; all of it when there is none. -/
def substringAfter (a : Expr α) (delimiter : String) : Expr α :=
  match a.text? with
  | some s => text (String.ofList (Text.after delimiter.toList s.toList))
  | none => scalar .substringAfter .text .binary [a, text delimiter]

/-- The text without blanks at its ends. -/
def trim (a : Expr α) : Expr α :=
  match a.text? with
  | some s => text (Text.trim s)
  | none => scalar .trim .text .unary [a]

/-- The text with every occurrence of a pattern replaced. -/
def replace (a : Expr α) (pattern replacement : String) : Expr α :=
  match a.text? with
  | some s => text (String.ofList (Text.replace pattern.toList replacement.toList s.toList))
  | none => scalar .replace .text .ternary [a, text pattern, text replacement]

/-- The number of characters. -/
def length [Coordinate α] (a : Expr α) : Expr α :=
  match a.text? with
  | some s => number (ofNat s.length)
  | none => scalar .length .number .unary [a]

/-- The number of occurrences of a text, from the length lost when it is removed. -/
def countOf [Coordinate α] (a : Expr α) (needle : String) : Expr α :=
  dividedBy (minus a.length (a.replace needle "").length) (number (ofNat (max needle.length 1)))

/-- The number a text denotes; a literal that denotes none is left to the database. -/
def toNumber [Numeral α] (a : Expr α) : Expr α :=
  match a.text?.bind fun s => Numeral.read? (Text.trim s) with
  | some x => number x
  | none => scalar .textToNumber .number .unary [a]

/-- The numerals between the parentheses of a well-known text, in reading order. -/
def ordinateTokens (wkt : List Char) : List (List Char) :=
  match Text.cut? ['('] wkt with
  | none => []
  | some (_, body) => Text.tokens (fun c => Text.isBlank c || "(),".toList.contains c) body

/-- The number at a position between the parentheses of a well-known text. -/
def ordinateOf? [Numeral α] (wkt : String) (index : UInt32) : Option α :=
  (ordinateTokens wkt.toList)[index.toNat]?.bind fun token => Numeral.read? (String.ofList token)

/-- The number at a position between the parentheses of a well-known text; a literal text without
one gives an absent number. -/
def ordinate [Numeral α] (a : Expr α) (index : UInt32) : Expr α :=
  match a.text? with
  | some s =>
    match ordinateOf? s index with
    | some x => number x
    | none => absent .number
  | none => scalar (.ordinate index) .number .unary [a]

end SpatialSql.Expr
