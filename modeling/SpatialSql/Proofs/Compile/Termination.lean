import SpatialSql.Compile
import Mathlib.Logic.Relation
import Mathlib.Logic.Function.Iterate

/-!
# Compilation never comes back to a node it has entered

`compileStep` is one round of the compiler, with the compiler for smaller expressions
left open, and `Enters` lists every expression such a round can ask for, whichever
operators the renderer declines. Each of them is lighter than the expression at hand,
so rounds nest no deeper than the weight. No renderer and no way of building the tree
is assumed.
-/

namespace SpatialSql

open Emulation

variable {α : Type}

/-- An expression occurs in another one: it is the same, or occurs in one of the operands. -/
inductive Expr.OccursIn (s : Expr α) : Expr α → Prop
  | self : OccursIn s s
  | operand {e : Expr α} {op : Op} {kind : ValueKind} {shape : Shape} {operands : List (Expr α)}
      {guarded : Bool} (he : e ∈ operands) (hs : OccursIn s e) :
      OccursIn s (.node op kind shape operands guarded)

variable [Numeral α]

/-- What occurs in an expression is no heavier than it. -/
theorem Expr.OccursIn.weight_le {s e : Expr α} (h : s.OccursIn e) : s.weight ≤ e.weight := by
  induction h with
  | self => exact Nat.le_refl _
  | @operand e op kind shape operands guarded he _ ih =>
    have hle := Expr.weight_le_heaviest he
    have hlt := Expr.heaviest_lt_weight op kind shape operands guarded
    omega

/-- An operand is lighter than its node. -/
theorem Expr.weight_operand_lt {op : Op} {kind : ValueKind} {shape : Shape}
    {operands : List (Expr α)} {guarded : Bool} {e : Expr α} (he : e ∈ operands) :
    e.weight < (Expr.node op kind shape operands guarded).weight :=
  Nat.lt_of_le_of_lt (Expr.weight_le_heaviest he)
    (Expr.heaviest_lt_weight op kind shape operands guarded)

/-- Compiling the first expression may compile the second one on the way. -/
inductive Enters : Expr α → Expr α → Prop
  /-- A guarded node asks for what its null test looks at. -/
  | subject (op : Op) (kind : ValueKind) (shape : Shape) (operands : List (Expr α)) :
      Enters (.node op kind shape operands true) (Expr.nullSubject kind operands)
  | operand {op : Op} {kind : ValueKind} {shape : Shape} {operands : List (Expr α)} {e : Expr α}
      (he : e ∈ operands) : Enters (.node op kind shape operands false) e
  /-- A spatial node that is declined asks for its portable form. -/
  | formula {kind : GeometryKind} {op : SpatialOp} {valueKind : ValueKind} {shape : Shape}
      {operands : List (Expr α)} {form : Emulated α} (hf : emulate? kind op operands = some form) :
      Enters (.node (.spatial kind op) valueKind shape operands false) form.expr

/-- Whatever a compilation enters is lighter. -/
theorem Enters.weight_lt {e e' : Expr α} (h : Enters e e') : e'.weight < e.weight := by
  cases h with
  | subject op kind shape operands => exact Expr.nullSubject_weight_lt ..
  | operand he => exact Expr.weight_operand_lt he
  | formula hf => exact emulate?_weight_lt_node hf ..

/-- Along a chain of entered expressions the weight only falls. -/
theorem weight_lt_of_transGen_enters {e e' : Expr α} (h : Relation.TransGen Enters e e') :
    e'.weight < e.weight := by
  induction h with
  | single h => exact h.weight_lt
  | tail _ h ih => exact Nat.lt_trans h.weight_lt ih

/-- The renderer's own form of a spatial operator, when all operands compile and it offers one. -/
def Renderer.native? (r : Renderer α) (kind : GeometryKind) (op : SpatialOp)
    (operands : List (Expr α)) (args : Except Error (List String)) : Option String :=
  args.toOption.bind fun args => r.lower kind op (r.rebased op operands args)

/-- One round of the compiler, given a compiler for the expressions it asks for. -/
def compileStep (r : Renderer α) (self : Expr α → Except Error String) :
    Expr α → Except Error String
  | .literal value => .ok (r.literalSql value)
  | .column c => .ok (r.columnSql c)
  | .absent _ => .ok "NULL"
  | .node _ kind _ operands true =>
    (self (Expr.nullSubject kind operands)).map Renderer.nullTestSql
  | .node (.scalar op) _ _ operands false => (operands.mapM self).map (r.scalarSql op)
  | .node (.spatial kind op) _ _ operands false =>
    let args := operands.mapM self
    match r.native? kind op operands args with
    | some sql => .ok sql
    | none =>
      match emulate? kind op operands with
      | some (.value e) => self e
      | some (.wkt kind text) => (self text).map (r.geometryFromText kind)
      | none =>
        match args with
        | .error e => .error e
        | .ok _ => .error (.noEmulation kind op r.name)

/-- Compiling a list compiles its members from the left, up to the first error. -/
theorem compileAll_eq_mapM (r : Renderer α) (es : List (Expr α)) :
    compileAll r es = es.mapM (compile r) := by
  induction es with
  | nil => rw [compileAll]; rfl
  | cons e rest ih =>
    rw [compileAll, List.mapM_cons, ih]
    cases compile r e with
    | error error => rfl
    | ok sql => cases rest.mapM (compile r) <;> rfl

/-- The compiler is a fixed point of its round. -/
theorem compile_eq_compileStep (r : Renderer α) (e : Expr α) :
    compile r e = compileStep r (compile r) e := by
  match e with
  | .literal value => rw [compile, compileStep]
  | .column c => rw [compile, compileStep]
  | .absent kind => rw [compile, compileStep]
  | .node op kind shape operands true => rw [compile, compileStep]
  | .node (.scalar op) kind shape operands false =>
    rw [compile, compileStep, compileAll_eq_mapM]
  | .node (.spatial kind op) valueKind shape operands false =>
    rw [compile, compileStep, compileAll_eq_mapM]
    -- The compiler keeps the equation of its match for the descent, the round does not.
    split
    · next sql hn => rw [show r.native? kind op operands _ = some sql from hn]
    · next hn =>
      rw [show r.native? kind op operands _ = none from hn]
      split
      · next e he => simp only [he]
      · next kind' text ht => simp only [ht]
      · next hf => cases operands.mapM (compile r) <;> simp only [hf]

omit [Numeral α] in
/-- The compiled members of a list depend on the compiler only through these members. -/
theorem mapM_congr {f g : Expr α → Except Error String} {es : List (Expr α)}
    (h : ∀ e ∈ es, f e = g e) : es.mapM f = es.mapM g := by
  induction es with
  | nil => rfl
  | cons e rest ih =>
    rw [List.mapM_cons, List.mapM_cons, h e List.mem_cons_self,
      ih fun e' he' => h e' (List.mem_cons_of_mem _ he')]

/-- A round asks for nothing but the expressions it enters. -/
theorem compileStep_congr (r : Renderer α) {f g : Expr α → Except Error String} {e : Expr α}
    (h : ∀ e', Enters e e' → f e' = g e') : compileStep r f e = compileStep r g e := by
  match e with
  | .literal value => rfl
  | .column c => rfl
  | .absent kind => rfl
  | .node op kind shape operands true =>
    rw [compileStep, compileStep, h _ (.subject op kind shape operands)]
  | .node (.scalar op) kind shape operands false =>
    rw [compileStep, compileStep, mapM_congr fun e' he' => h e' (.operand he')]
  | .node (.spatial kind op) valueKind shape operands false =>
    rw [compileStep, compileStep, mapM_congr fun e' he' => h e' (.operand he')]
    split
    · rfl
    · cases hf : emulate? kind op operands with
      | none => rfl
      | some form =>
        have hform := h _ (.formula hf)
        cases form with
        | value e' => exact hform
        | wkt kind' text =>
          simp only [Emulated.expr] at hform
          simp only [hform]

/-- More rounds than the weight give the compiler's answer, whatever the innermost round is told. -/
theorem iterate_compileStep (r : Renderer α) (start : Expr α → Except Error String) {n : Nat}
    {e : Expr α} (h : e.weight < n) : (compileStep r)^[n] start e = compile r e := by
  induction n generalizing e with
  | zero => omega
  | succ n ih =>
    rw [Function.iterate_succ_apply', compile_eq_compileStep]
    refine compileStep_congr r fun e' he' => ih ?_
    have := he'.weight_lt
    omega

/-- There is a measure that falls from every node to its operands, from every guarded node to what
its null test looks at, and from every spatial node to everything that occurs in its portable form.
Hence no compilation comes back to an expression it has entered, and for every renderer the
compiler's answer is found within as many nested rounds as the measure says. -/
theorem compile_descends :
    ∃ measure : Expr α → Nat,
      (∀ (op : Op) (kind : ValueKind) (shape : Shape) (operands : List (Expr α)) (guarded : Bool),
        ∀ e ∈ operands, measure e < measure (.node op kind shape operands guarded)) ∧
      (∀ (op : Op) (kind : ValueKind) (shape : Shape) (operands : List (Expr α)),
        measure (Expr.nullSubject kind operands) < measure (.node op kind shape operands true)) ∧
      (∀ (kind : GeometryKind) (op : SpatialOp) (valueKind : ValueKind) (shape : Shape)
        (operands : List (Expr α)) (form : Emulated α), emulate? kind op operands = some form →
        ∀ e : Expr α, e.OccursIn form.expr →
          measure e < measure (.node (.spatial kind op) valueKind shape operands false)) ∧
      (∀ e : Expr α, ¬ Relation.TransGen Enters e e) ∧
      ∀ (r : Renderer α) (start : Expr α → Except Error String) (e : Expr α) (n : Nat),
        measure e < n → (compileStep r)^[n] start e = compile r e := by
  refine ⟨Expr.weight, ?_, ?_, ?_, ?_, ?_⟩
  · intro op kind shape operands guarded e he
    exact Expr.weight_operand_lt he
  · intro op kind shape operands
    exact Expr.nullSubject_weight_lt ..
  · intro kind op valueKind shape operands form hf e he
    exact Nat.lt_of_le_of_lt he.weight_le (emulate?_weight_lt_node hf ..)
  · intro e h
    exact Nat.lt_irrefl _ (weight_lt_of_transGen_enters h)
  · intro r start e n h
    exact iterate_compileStep r start h

end SpatialSql
