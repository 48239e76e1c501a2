import SpatialSql.Dialect.Basic
import SpatialSql.Emulation.Descent

/-!
# Compilation to SQL

A spatial node is offered to the renderer first, with its operands compiled. When
the renderer declines, the node's portable form is compiled in its place, and that
recursion ends because the form is lighter than the node. A guarded node never
reaches the renderer: it is compiled as a null test of its first operand.
-/

namespace SpatialSql

open Emulation

variable {α : Type} [Numeral α]

namespace Renderer

/-- A literal in SQL. -/
def literalSql (r : Renderer α) : Literal α → String
  | .bool value => r.boolean value
  | .number value => r.number value
  | .text value => r.literal value
  | .point p => r.geometryLiteral .point p.wkt
  | .line l => r.geometryLiteral .line l.wkt
  | .segment s => r.geometryLiteral .segment s.wkt
  | .multiPoint m => r.geometryLiteral .multiPoint m.wkt
  | .polygon p => r.geometryLiteral .polygon p.wkt

/-- A qualified column name in SQL. -/
def columnSql (r : Renderer α) (c : Column) : String :=
  r.identifier c.table.qualifier ++ "." ++ r.identifier c.name

/-- A null test in SQL. -/
def nullTestSql (subject : String) : String := "(" ++ subject ++ " IS NULL)"

/-- A scalar operator in SQL; a missing operand is a null. -/
def scalarSql (r : Renderer α) (op : ScalarOp) (args : List String) : String :=
  let arg (i : Nat) : String := args[i]?.getD "NULL"
  match op with
  | .add | .subtract | .multiply | .divide | .equals | .notEquals | .lessThan | .lessThanOrEqual
  | .greaterThan | .greaterThanOrEqual | .and | .or =>
    "(" ++ arg 0 ++ " " ++ op.symbol?.getD "" ++ " " ++ arg 1 ++ ")"
  -- The space keeps a negative operand from opening a comment.
  | .negate => "(- " ++ arg 0 ++ ")"
  | .squareRoot => r.sqrt (arg 0)
  | .least => r.least (arg 0) (arg 1)
  | .greatest => r.greatest (arg 0) (arg 1)
  | .not => "(NOT " ++ arg 0 ++ ")"
  | .isNull => nullTestSql (arg 0)
  | .isNotNull => "(" ++ arg 0 ++ " IS NOT NULL)"
  | .case => "CASE WHEN " ++ arg 0 ++ " THEN " ++ arg 1 ++ " ELSE " ++ arg 2 ++ " END"
  | .concat => r.concat args
  | .numberToText => r.toText (arg 0)
  | .textToNumber => r.toNumber (arg 0)
  | .length => r.length (arg 0)
  | .trim => r.trim (arg 0)
  | .replace => r.replace (arg 0) (arg 1) (arg 2)
  | .substringBefore => r.substringBefore (arg 0) (arg 1)
  | .substringAfter => r.substringAfter (arg 0) (arg 1)
  | .ordinate index => r.ordinate (arg 0) index
  | .min => "MIN(" ++ arg 0 ++ ")"
  | .max => "MAX(" ++ arg 0 ++ ")"
  | .count => "COUNT(" ++ arg 0 ++ ")"

/-- Shifts an index that counts from zero to the base of the renderer. -/
def rebasedIndex (r : Renderer α) (index : Expr α) (sql : String) : String :=
  if r.indexBase = 0 then sql
  else
    match index.number? with
    | some n => r.number (n + Coordinate.ofInt r.indexBase)
    | none => "(" ++ sql ++ " + " ++ r.number (Coordinate.ofInt r.indexBase) ++ ")"

/-- The compiled operands of a spatial operator as the renderer wants them. -/
def rebased (r : Renderer α) (op : SpatialOp) (operands : List (Expr α)) (args : List String) :
    List String :=
  match op, operands, args with
  | .pointAtIndex, _ :: index :: _, points :: sql :: rest =>
    points :: r.rebasedIndex index sql :: rest
  | _, _, args => args

end Renderer

mutual

/-- The SQL of an expression. An operand that fails to compile is not needed where the portable form
of the operator does without it, so its error is raised only when there is no such form. -/
def compile (r : Renderer α) : Expr α → Except Error String
  | .literal value => .ok (r.literalSql value)
  | .column c => .ok (r.columnSql c)
  | .absent _ => .ok "NULL"
  | .node _ kind _ operands true =>
    (compile r (Expr.nullSubject kind operands)).map Renderer.nullTestSql
  | .node (.scalar op) _ _ operands false => (compileAll r operands).map (r.scalarSql op)
  | .node (.spatial kind op) _ _ operands false =>
    let args := compileAll r operands
    let native := args.toOption.bind fun args => r.lower kind op (r.rebased op operands args)
    match native with
    | some sql => .ok sql
    | none =>
      match _h : emulate? kind op operands with
      | some (.value e) => compile r e
      | some (.wkt kind text) => (compile r text).map (r.geometryFromText kind)
      | none =>
        match args with
        | .error e => .error e
        | .ok _ => .error (.noEmulation kind op r.name)
  termination_by e => (e.weight, 0)
  decreasing_by
    · apply Prod.Lex.left
      exact Expr.nullSubject_weight_lt ..
    · apply Prod.Lex.left
      exact Expr.heaviest_lt_weight ..
    · apply Prod.Lex.left
      exact Expr.heaviest_lt_weight ..
    · apply Prod.Lex.left
      exact emulate?_weight_lt_node _h ..
    · apply Prod.Lex.left
      exact emulate?_weight_lt_node _h ..

/-- The SQL of every expression of a list, or the first error. -/
def compileAll (r : Renderer α) : List (Expr α) → Except Error (List String)
  | [] => .ok []
  | e :: rest =>
    match compile r e with
    | .error error => .error error
    | .ok sql => (compileAll r rest).map (sql :: ·)
  termination_by es => (Expr.heaviest es, es.length + 1)
  decreasing_by
    · rw [Expr.heaviest_cons]
      apply Prod.Lex.right'
      · omega
      · simp
    · rw [Expr.heaviest_cons]
      apply Prod.Lex.right'
      · omega
      · simp

end

/-- The SQL of an expression in a built-in dialect. -/
def Dialect.compile (dialect : Dialect) (e : Expr α) : Except Error String :=
  SpatialSql.compile dialect.renderer e

end SpatialSql
