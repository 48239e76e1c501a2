import SpatialSql.Operator
import SpatialSql.Expr.Literal

/-!
# Expression trees

An expression is a literal, a column, an absent value or an operator applied to
operands. A spatial node also records whether a required operand is missing; such
a *guarded* node stands for a null test of its first operand instead of the
operator. The record is made once, when the node is built by `Expr.apply`.
-/

namespace SpatialSql

/-- How the operands of a node were given. -/
inductive Shape where
  | unary
  | binary
  | ternary
  /-- Members of a construction, or the parts of a variadic operator. -/
  | nary
  deriving DecidableEq, Repr

/-- An expression over numbers of type `α`. -/
inductive Expr (α : Type) where
  | literal (value : Literal α)
  | column (column : Column)
  /-- An operand that was left out; it compiles to a null. -/
  | absent (kind : ValueKind)
  | node (op : Op) (kind : ValueKind) (shape : Shape) (operands : List (Expr α)) (guarded : Bool)

namespace Expr

variable {α : Type}

/-- The kind of value an expression has. -/
def kind : Expr α → ValueKind
  | literal value => value.kind
  | column c => c.kind
  | absent k => k
  | node _ k _ _ _ => k

/-- The expression is an absent value. -/
def isAbsent : Expr α → Bool
  | absent _ => true
  | _ => false

/-- The expression is a node that stands for a null test. -/
def isGuarded : Expr α → Bool
  | node _ _ _ _ guarded => guarded
  | _ => false

/-- The expression is absent or stands for a null test. -/
def includesNull (e : Expr α) : Bool := e.isAbsent || e.isGuarded

/-- The number of operands a node needs when they are given as a list. -/
def requiredMembers : Op → Nat
  | .spatial kind .construct => kind.minMembers
  | _ => 1

/-- A required operand is missing: the only one, one after the first, or any of a list that may
also be too short. -/
def lacksOperand (op : Op) (shape : Shape) (operands : List (Expr α)) : Bool :=
  match shape with
  | .unary => operands.any isAbsent
  | .binary | .ternary => (operands.drop 1).any includesNull
  | .nary => decide (operands.length < requiredMembers op) || operands.any includesNull

/-- A node, guarded when its operator guards and a required operand is missing. -/
def apply (op : Op) (kind : ValueKind) (shape : Shape) (operands : List (Expr α)) : Expr α :=
  node op kind shape operands (op.guards && lacksOperand op shape operands)

/-- A spatial node; the kind of its value follows from the operator. -/
def spatial (kind : GeometryKind) (op : SpatialOp) (shape : Shape) (operands : List (Expr α)) :
    Expr α :=
  apply (.spatial kind op) (op.resultKind kind) shape operands

/-- A scalar node. -/
def scalar (op : ScalarOp) (kind : ValueKind) (shape : Shape) (operands : List (Expr α)) :
    Expr α :=
  apply (.scalar op) kind shape operands

/-- A spatial node over one geometry. -/
def spatial₁ (kind : GeometryKind) (op : SpatialOp) (a : Expr α) : Expr α :=
  spatial kind op .unary [a]

/-- A spatial node over two operands. -/
def spatial₂ (kind : GeometryKind) (op : SpatialOp) (a b : Expr α) : Expr α :=
  spatial kind op .binary [a, b]

/-- The operands of a node; leaves have none. -/
def operands : Expr α → List (Expr α)
  | node _ _ _ operands _ => operands
  | _ => []

/-- The operands of a node that applies the given spatial operator, whatever its geometry kind. -/
def spatialOperands? (op : SpatialOp) : Expr α → Option (List (Expr α))
  | node (.spatial _ op') _ _ operands _ => if op' = op then some operands else none
  | _ => none

/-- What a guarded node tests: its first operand, or an absent value when it has none. -/
def nullSubject (kind : ValueKind) (operands : List (Expr α)) : Expr α :=
  operands.head?.getD (absent kind)

mutual

/-- The tables an expression refers to, added to an ordered list. -/
def collectTables (tables : List Table) : Expr α → List Table
  | literal _ => tables
  | column c => c.table.insert tables
  | absent _ => tables
  | node _ _ _ operands _ => collectTablesOf tables operands

/-- The tables a list of expressions refers to, added to an ordered list. -/
def collectTablesOf (tables : List Table) : List (Expr α) → List Table
  | [] => tables
  | e :: rest => collectTablesOf (collectTables tables e) rest

end

/-- The tables an expression refers to, in order. -/
def tables (e : Expr α) : List Table := e.collectTables []

mutual

/-- The expression ranges over the rows of a group somewhere. -/
def isAggregate : Expr α → Bool
  | literal _ | column _ | absent _ => false
  | node op _ _ operands _ => op.isAggregate || anyAggregate operands

/-- One of the expressions ranges over the rows of a group somewhere. -/
def anyAggregate : List (Expr α) → Bool
  | [] => false
  | e :: rest => isAggregate e || anyAggregate rest

end

mutual

/-- Rebuilds an expression node by node. -/
def deepCopy : Expr α → Expr α
  | literal value => literal value
  | column c => column c
  | absent k => absent k
  | node op kind shape operands guarded => node op kind shape (deepCopyAll operands) guarded

/-- Rebuilds every expression of a list. -/
def deepCopyAll : List (Expr α) → List (Expr α)
  | [] => []
  | e :: rest => deepCopy e :: deepCopyAll rest

end

mutual

/-- Equality of structure; numbers are compared as numbers. -/
def same [BEq α] : Expr α → Expr α → Bool
  | literal v, literal w => v == w
  | column c, column d => decide (c = d)
  | absent k, absent l => decide (k = l)
  | node op kind shape operands guarded, node op' kind' shape' operands' guarded' =>
    decide (op = op') && decide (kind = kind') && decide (shape = shape') &&
      sameAll operands operands' && guarded == guarded'
  | _, _ => false

/-- Equality of structure, operand by operand. -/
def sameAll [BEq α] : List (Expr α) → List (Expr α) → Bool
  | [], [] => true
  | e :: rest, e' :: rest' => same e e' && sameAll rest rest'
  | _, _ => false

end

instance [BEq α] : BEq (Expr α) := ⟨same⟩

/-- The literal behind an expression. -/
def literal? : Expr α → Option (Literal α)
  | literal value => some value
  | _ => none

/-- The literal truth value behind an expression. -/
def bool? : Expr α → Option Bool
  | literal (.bool value) => some value
  | _ => none

/-- The literal number behind an expression. -/
def number? : Expr α → Option α
  | literal (.number value) => some value
  | _ => none

/-- The literal text behind an expression. -/
def text? : Expr α → Option String
  | literal (.text value) => some value
  | _ => none

/-- The literal point behind an expression. -/
def point? : Expr α → Option (Point α)
  | literal (.point value) => some value
  | _ => none

/-- The literal line behind an expression. -/
def line? : Expr α → Option (Line α)
  | literal (.line value) => some value
  | _ => none

/-- The literal segment behind an expression. -/
def segment? : Expr α → Option (Segment α)
  | literal (.segment value) => some value
  | _ => none

/-- The literal point collection behind an expression. -/
def multiPoint? : Expr α → Option (MultiPoint α)
  | literal (.multiPoint value) => some value
  | _ => none

/-- The literal polygon behind an expression. -/
def polygon? : Expr α → Option (Polygon α)
  | literal (.polygon value) => some value
  | _ => none

/-- A literal truth value. -/
def bool (value : Bool) : Expr α := literal (.bool value)

/-- A literal number. -/
def number (value : α) : Expr α := literal (.number value)

/-- A literal text. -/
def text (value : String) : Expr α := literal (.text value)

/-- A literal point. -/
def point (value : Point α) : Expr α := literal (.point value)

/-- A literal line. -/
def line (value : Line α) : Expr α := literal (.line value)

/-- A literal segment. -/
def segment (value : Segment α) : Expr α := literal (.segment value)

/-- A literal point collection. -/
def multiPoint (value : MultiPoint α) : Expr α := literal (.multiPoint value)

/-- A literal polygon. -/
def polygon (value : Polygon α) : Expr α := literal (.polygon value)

end Expr

end SpatialSql
