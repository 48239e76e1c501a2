import SpatialSql.Expr.Geometry
import Mathlib.Data.Option.NAry

/-!
# The value of an expression in a row

A reference evaluator for expressions, in the reading a database gives to scalar
operators: connectives are three-valued, a case distinction takes its second value
unless the condition holds, and every other operator is null on a null operand. An
operand of the wrong type counts as null. What a database may decide for itself, such
as a division by zero, and the values of spatial operators and aggregates are part of
the environment; nothing is assumed about them.
-/

namespace SpatialSql

variable {α : Type}

namespace Literal

/-- The truth value behind a literal. -/
def bool? : Literal α → Option Bool
  | bool value => some value
  | _ => none

/-- The number behind a literal. -/
def number? : Literal α → Option α
  | number value => some value
  | _ => none

/-- The text behind a literal. -/
def text? : Literal α → Option String
  | text value => some value
  | _ => none

/-- A test of two numbers, two texts or two truth values; other pairs cannot be compared. -/
def test? (onNumbers : α → α → Bool) (onTexts : String → String → Bool)
    (onTruths : Bool → Bool → Bool) : Literal α → Literal α → Option Bool
  | number x, number y => some (onNumbers x y)
  | text s, text t => some (onTexts s t)
  | bool p, bool q => some (onTruths p q)
  | _, _ => none

section Comparison

variable [Coordinate α]

/-- Two values are equal. -/
def equal? : Literal α → Literal α → Option Bool :=
  test? (fun x y => x == y) (fun s t => decide (s = t)) (fun p q => p == q)

/-- The first value is smaller; false comes before true. -/
def less? : Literal α → Literal α → Option Bool :=
  test? Coordinate.less (fun s t => decide (s < t)) (fun p q => !p && q)

/-- The first value is smaller, or they are equal. -/
def atMost? : Literal α → Literal α → Option Bool :=
  test? Coordinate.atMost (fun s t => decide (s ≤ t)) (fun p q => !p || q)

end Comparison

end Literal

namespace Truth

/-- Three-valued conjunction: false wins over null. -/
def and : Option Bool → Option Bool → Option Bool
  | some false, _ => some false
  | _, some false => some false
  | some true, some true => some true
  | _, _ => none

/-- Three-valued disjunction: true wins over null. -/
def or : Option Bool → Option Bool → Option Bool
  | some true, _ => some true
  | _, some true => some true
  | some false, some false => some false
  | _, _ => none

/-- Three-valued negation. -/
def not (p : Option Bool) : Option Bool := p.map fun p => !p

end Truth

/-- The concatenation of texts; one null makes it null. -/
def concatenation (texts : List (Option String)) : Option String :=
  texts.foldr (Option.map₂ fun s t => s ++ t) (some "")

/-- The row an expression is evaluated in, and what the database decides for itself. A value that is
missing is a null. -/
structure Environment (α : Type) where
  /-- The value of a column. -/
  column : Column → Option (Literal α)
  /-- The value of a spatial operator on the values of its operands. -/
  spatial : GeometryKind → SpatialOp → List (Option (Literal α)) → Option (Literal α)
  /-- The value of an aggregate over the group of the row. -/
  aggregate : ScalarOp → List (Expr α) → Option (Literal α)
  /-- The quotient of a number and zero. -/
  quotientByZero : α → Option α
  /-- The root of a number that is not at least zero. -/
  rootBelowZero : α → Option α
  /-- The number made of a text that denotes none. -/
  numberOfWords : String → Option α

namespace Environment

variable [Numeral α] (env : Environment α)

/-- The quotient of two numbers. -/
def quotient (x y : α) : Option α :=
  if y == Coordinate.zero then env.quotientByZero x else some (x / y)

/-- The square root of a number. -/
def root (x : α) : Option α :=
  if Coordinate.atMost Coordinate.zero x then some (Numeral.sqrt x) else env.rootBelowZero x

/-- The number a text denotes; blanks at its ends do not count. -/
def reading (s : String) : Option α :=
  match Numeral.read? (Text.trim s) with
  | some x => some x
  | none => env.numberOfWords s

/-- The value of a scalar operator that is no aggregate, on the values of its operands. A missing
operand is a null. Texts are trimmed, searched, replaced and measured by the functions the builders
compute with, not by those of some database: every Unicode blank is trimmed, where `TRIM` may take
spaces alone, and an empty pattern is found around each character, where `REPLACE` may leave the text
as it is. -/
def scalar (op : ScalarOp) (args : List (Option (Literal α))) : Option (Literal α) :=
  let arg (i : Nat) : Option (Literal α) := args[i]?.join
  let truth (i : Nat) : Option Bool := (arg i).bind Literal.bool?
  let number (i : Nat) : Option α := (arg i).bind Literal.number?
  let text (i : Nat) : Option String := (arg i).bind Literal.text?
  let compared (test : Literal α → Literal α → Option Bool) (i j : Nat) : Option Bool :=
    (arg i).bind fun v => (arg j).bind fun w => test v w
  match op with
  | .add => (Option.map₂ (fun x y => x + y) (number 0) (number 1)).map .number
  | .subtract => (Option.map₂ (fun x y => x - y) (number 0) (number 1)).map .number
  | .multiply => (Option.map₂ (fun x y => x * y) (number 0) (number 1)).map .number
  | .divide => ((number 0).bind fun x => (number 1).bind (env.quotient x)).map .number
  | .negate => (number 0).map fun x => .number (-x)
  | .squareRoot => ((number 0).bind env.root).map .number
  | .least => (Option.map₂ Coordinate.least (number 0) (number 1)).map .number
  | .greatest => (Option.map₂ Coordinate.greatest (number 0) (number 1)).map .number
  | .equals => (compared Literal.equal? 0 1).map .bool
  | .notEquals => (Truth.not (compared Literal.equal? 0 1)).map .bool
  | .lessThan => (compared Literal.less? 0 1).map .bool
  | .lessThanOrEqual => (compared Literal.atMost? 0 1).map .bool
  | .greaterThan => (compared Literal.less? 1 0).map .bool
  | .greaterThanOrEqual => (compared Literal.atMost? 1 0).map .bool
  | .and => (Truth.and (truth 0) (truth 1)).map .bool
  | .or => (Truth.or (truth 0) (truth 1)).map .bool
  | .not => (Truth.not (truth 0)).map .bool
  | .isNull => some (.bool (arg 0).isNone)
  | .isNotNull => some (.bool (arg 0).isSome)
  | .case => if truth 0 = some true then arg 1 else arg 2
  | .concat => (concatenation (args.map fun v => v.bind Literal.text?)).map .text
  | .numberToText => (number 0).map fun x => .text (Numeral.text x)
  | .textToNumber => ((text 0).bind env.reading).map .number
  | .length => (text 0).map fun s => .number (Coordinate.ofNat s.length)
  | .trim => (text 0).map fun s => .text (Text.trim s)
  | .replace =>
    (text 0).bind fun s => (text 1).bind fun pattern => (text 2).map fun replacement =>
      .text (String.ofList (Text.replace pattern.toList replacement.toList s.toList))
  | .substringBefore =>
    (text 0).bind fun s => (text 1).map fun delimiter =>
      .text (String.ofList (Text.before delimiter.toList s.toList))
  | .substringAfter =>
    (text 0).bind fun s => (text 1).map fun delimiter =>
      .text (String.ofList (Text.after delimiter.toList s.toList))
  | .ordinate index => ((text 0).bind fun s => Expr.ordinateOf? s index).map .number
  | .min | .max | .count => none

mutual

/-- The value of an expression. -/
def eval : Expr α → Option (Literal α)
  | .literal value => some value
  | .column c => env.column c
  | .absent _ => none
  | .node (.scalar op) _ _ operands _ =>
    if op.isAggregate then env.aggregate op operands else env.scalar op (evalAll operands)
  | .node (.spatial _ _) _ _ operands true => some (.bool (evalAll operands).head?.join.isNone)
  | .node (.spatial kind op) _ _ operands false => env.spatial kind op (evalAll operands)

/-- The values of a list of expressions. -/
def evalAll : List (Expr α) → List (Option (Literal α))
  | [] => []
  | e :: rest => eval e :: evalAll rest

end

/-- The truth value of an expression; null also for a value of another type. -/
def truth (e : Expr α) : Option Bool := (env.eval e).bind Literal.bool?

/-- The number an expression has as its value; null also for a value of another type. -/
def number (e : Expr α) : Option α := (env.eval e).bind Literal.number?

/-- The text an expression has as its value; null also for a value of another type. -/
def text (e : Expr α) : Option String := (env.eval e).bind Literal.text?

/-- The outcome of a test of two expressions; null when one of them is. -/
def compared (test : Literal α → Literal α → Option Bool) (a b : Expr α) : Option Bool :=
  (env.eval a).bind fun v => (env.eval b).bind fun w => test v w

end Environment

end SpatialSql
