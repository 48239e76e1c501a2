import SpatialSql.Proofs.Compile.Termination
import SpatialSql.Proofs.Kinds.Forms

/-!
# Properties of every node

An invariant often says the same of each node of an expression. It reaches portable forms if it
holds of the nodes that formulas make, whatever stands below them: all other nodes of a form are
taken over from the operands. `NodeLaws` lists what formulas make while they look up
coordinates, texts and bounds; a form may have a few more nodes over the operands themselves.
-/

namespace SpatialSql

variable {α : Type}

namespace Expr

/-- A property holds of everything that occurs in an expression, the expression included. -/
def Every (Q : Expr α → Prop) (e : Expr α) : Prop := ∀ s : Expr α, s.OccursIn e → Q s

variable {Q : Expr α → Prop}

/-- What occurs in a part occurs in the whole. -/
theorem OccursIn.trans {a b c : Expr α} (hab : a.OccursIn b) (hbc : b.OccursIn c) :
    a.OccursIn c := by
  induction hbc with
  | self => exact hab
  | operand he _ ih => exact .operand he ih

/-- What holds throughout an expression holds of it. -/
theorem Every.self {e : Expr α} (h : e.Every Q) : Q e := h e .self

/-- What holds throughout an expression holds throughout its parts. -/
theorem Every.of_occursIn {s e : Expr α} (h : e.Every Q) (hs : s.OccursIn e) : s.Every Q :=
  fun _ ht => h _ (ht.trans hs)

theorem every_literal {value : Literal α} (h : Q (literal value)) : (literal value).Every Q := by
  intro s hs
  cases hs
  exact h

theorem every_column {c : Column} (h : Q (column c)) : (column c).Every Q := by
  intro s hs
  cases hs
  exact h

theorem every_absent {kind : ValueKind} (h : Q (absent kind)) : (absent kind).Every Q := by
  intro s hs
  cases hs
  exact h

/-- A property holds throughout a node if it holds of the node and throughout the operands. -/
theorem every_node {op : Op} {kind : ValueKind} {shape : Shape} {operands : List (Expr α)}
    {guarded : Bool} :
    (node op kind shape operands guarded).Every Q ↔
      Q (node op kind shape operands guarded) ∧ ∀ e ∈ operands, e.Every Q := by
  constructor
  · intro h
    exact ⟨h.self, fun e he => h.of_occursIn (.operand he .self)⟩
  · rintro ⟨hnode, hoperands⟩ s hs
    cases hs with
    | self => exact hnode
    | operand he hs => exact hoperands _ he s hs

end Expr

namespace Emulation

open SpatialSql.Expr

/-- A property of single expressions that holds of what formulas make while they look up
coordinates, texts and bounds. -/
structure NodeLaws (Q : Expr α → Prop) : Prop where
  literal (value : Literal α) : Q (.literal value)
  absent (kind : ValueKind) : Q (.absent kind)
  scalar (op : ScalarOp) (kind : ValueKind) (shape : Shape) (operands : List (Expr α))
    (ha : op.isAggregate = false) : Q (.scalar op kind shape operands)
  /-- Only the extent of a group brings in bounds of a group. -/
  grouped {op : ScalarOp} {geometry : GeometryKind} {valueKind : ValueKind} {shape : Shape}
    {operands : List (Expr α)} {guarded : Bool} (hop : op = .min ∨ op = .max)
    (hx : Q (.node (.spatial geometry .extent) valueKind shape operands guarded)) (a : Expr α) :
    Q (.scalar op .number .unary [a])
  accessor (kind : GeometryKind) {op : SpatialOp} (ha : op.isAggregate = false) {g : Expr α}
    (hn : g.isAbsent = false) : Q (spatial₁ kind op g)

variable {Q : Expr α → Prop}

namespace NodeLaws

/-- A property that single nodes have is carried to coordinates, texts and bounds. -/
theorem carried (hQ : NodeLaws Q) : Carried fun _ e => e.Every Q where
  literal value := every_literal (hQ.literal value)
  absent kind := every_absent (hQ.absent kind)
  scalar {op kind shape kinds operands} ht ha ho := by
    clear ht
    refine every_node.mpr ⟨hQ.scalar op kind shape operands ha, ?_⟩
    induction ho with
    | nil => exact List.forall_mem_nil _
    | cons he _ ih => exact List.forall_mem_cons.mpr ⟨he, ih⟩
  case hc hv ho := by
    refine every_node.mpr ⟨hQ.scalar .case _ _ _ rfl, ?_⟩
    simp [hc, hv, ho]
  grouped hop hx ha := by
    refine every_node.mpr ⟨hQ.grouped hop hx.self _, ?_⟩
    simpa using ha
  part h he := (every_node.mp h).2 _ he
  operand h he := (every_node.mp h).2 _ (List.mem_of_getElem? he)
  member h he := (every_node.mp h).2 _ he
  result h := h
  getter axis p hp hn := by
    have ha : axis.getter.isAggregate = false := by cases axis <;> rfl
    refine every_node.mpr ⟨hQ.accessor .point ha hn, ?_⟩
    simpa using hp
  wellKnownText hg hn := by
    refine every_node.mpr ⟨hQ.accessor _ rfl hn, ?_⟩
    simpa using hg
  side side kind g hg hn := by
    have ha : side.op.isAggregate = false := by rcases side with ⟨_ | _, _ | _⟩ <;> rfl
    refine every_node.mpr ⟨hQ.accessor kind ha hn, ?_⟩
    simpa using hg

/-- A property that single nodes have is inherited by portable forms if it holds as well of the
nodes that these make over the operands themselves. -/
theorem inherited (hQ : NodeLaws Q)
    (h₁ : ∀ g, Q (spatial₁ .multiPoint .numberOfPoints g))
    (h₂ : ∀ kind op a b, SpatialOp.isAggregate op = false → Q (spatial₂ kind op a b))
    (hl : ∀ members, Q (construct .line members)) : Inherited fun _ e => e.Every Q where
  toCarried := hQ.carried
  size h := by
    refine every_node.mpr ⟨h₁ _, ?_⟩
    simpa using h
  line h := every_node.mpr ⟨hl _, h⟩
  equality hop ha hb := by
    refine every_node.mpr ⟨h₂ _ _ _ _ (by rcases hop with rfl | rfl <;> rfl), ?_⟩
    simp [ha, hb]
  polygons hop ha hb := by
    refine every_node.mpr ⟨h₂ _ _ _ _ (by rcases hop with rfl | rfl <;> rfl), ?_⟩
    simp [ha, hb]
  region ha hb := by
    refine every_node.mpr ⟨h₂ _ _ _ _ rfl, ?_⟩
    simp [ha, hb]
  meeting h := every_node.mpr ⟨h₂ _ _ _ _ rfl, (every_node.mp h).2⟩

end NodeLaws

/-- What holds of a portable form, whatever its kind, holds of the expression it consists of. -/
theorem Emulated.Satisfies.every {kind : ValueKind} {form : Emulated α}
    (h : form.Satisfies (fun _ e => e.Every Q) kind) : form.expr.Every Q := by
  cases form with
  | value e => exact h
  | wkt geometry text => exact h.2

section Node

variable {kind : GeometryKind} {op : SpatialOp} {valueKind : ValueKind} {shape : Shape}
  {operands : List (Expr α)} {guarded : Bool} {form : Emulated α}

/-- A form that has a property throughout, or is one of the operands, takes it over from the node. -/
theorem every_of_satisfies (hn : (node (.spatial kind op) valueKind shape operands guarded).Every Q)
    (hform : form.Satisfies (fun _ e => e.Every Q) (op.resultKind kind) ∨
      op = .asText ∧ ∃ g ∈ operands, form = .value g) : form.expr.Every Q := by
  rcases hform with hs | ⟨-, g, hg, rfl⟩
  · exact hs.every
  · exact (every_node.mp hn).2 g hg

variable [Numeral α]

/-- What is carried throughout a spatial node holds throughout a form that needs no other one. The
kind at which the node is taken does not show in the property. -/
theorem Carried.every_form (hP : Carried fun _ e => e.Every Q)
    (hn : (node (.spatial kind op) valueKind shape operands guarded).Every Q)
    (hl : ∀ points, kind = .multiPoint → op = .toLine → operands = [points] →
      (Emulation.emulateToLine points).Satisfies (fun _ e => e.Every Q) (.geometry .line))
    (hf : Emulation.basic? kind op operands = some form) : form.expr.Every Q :=
  every_of_satisfies hn
    (@Carried.basic? α _ hP _ kind op valueKind valueKind shape operands guarded form hn hl hf)

/-- What is inherited throughout a spatial node holds throughout its portable form. -/
theorem Inherited.every_form (hP : Inherited fun _ e => e.Every Q)
    (hn : (node (.spatial kind op) valueKind shape operands guarded).Every Q)
    (hf : Emulation.emulate? kind op operands = some form) : form.expr.Every Q :=
  every_of_satisfies hn
    (@Inherited.emulate? α _ hP _ kind op valueKind valueKind shape operands guarded form hn hf)

end Node

end Emulation

end SpatialSql
