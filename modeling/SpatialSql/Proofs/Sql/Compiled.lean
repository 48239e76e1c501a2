import SpatialSql.Proofs.Sql.Dialects
import SpatialSql.Proofs.Compile.Outcome

/-!
# Compiled SQL stays in one piece

By induction along the expressions a compilation enters, everything a tidy renderer
compiles spans. For the built-in renderers this gives two results about all trees: what
a tree carries as text cannot leave its quotes, and the SQL of a tree is enclosed as a
whole unless it is a negation that the dialect writes without parentheses.
-/

namespace SpatialSql

open Emulation

namespace Sql

variable {α : Type} [Numeral α] {q : Quoting} {negates : Bool} {r : Renderer α}

/-- The SQL of an expression is a negation without parentheses around it: the renderer writes such
negations and lowers an inequality of geometries to one, or it declines a node and the portable form that
stands in for the node is compiled to one. -/
inductive BareNegation (r : Renderer α) (negates : Bool) : Expr α → Prop
  | lowered {kind : GeometryKind} {valueKind : ValueKind} {shape : Shape} {operands : List (Expr α)}
      {sql : String} (hn : negates = true)
      (hl : r.native? kind .notEquals operands (operands.mapM (compile r)) = some sql) :
      BareNegation r negates (.node (.spatial kind .notEquals) valueKind shape operands false)
  | replaced {kind : GeometryKind} {op : SpatialOp} {valueKind : ValueKind} {shape : Shape}
      {operands : List (Expr α)} {e : Expr α}
      (hd : r.native? kind op operands (operands.mapM (compile r)) = none)
      (hf : emulate? kind op operands = some (.value e)) (he : BareNegation r negates e) :
      BareNegation r negates (.node (.spatial kind op) valueKind shape operands false)

/-- Bare negations are written only by renderers that negate bare. -/
theorem BareNegation.negates_eq_true {e : Expr α} (h : BareNegation r negates e) :
    negates = true := by
  induction h with
  | lowered hn _ => exact hn
  | replaced _ _ _ ih => exact ih

/-- A lowered node is a bare negation exactly if it is an inequality. -/
theorem bareNegation_iff_of_lowered {kind : GeometryKind} {op : SpatialOp} {valueKind : ValueKind}
    {shape : Shape} {operands : List (Expr α)} {sql : String}
    (hl : r.native? kind op operands (operands.mapM (compile r)) = some sql) :
    BareNegation r negates (.node (.spatial kind op) valueKind shape operands false) ↔
      (negates && op == .notEquals) = true := by
  rw [Bool.and_eq_true, beq_iff_eq]
  constructor
  · intro h
    cases h with
    | lowered hn _ => exact ⟨hn, rfl⟩
    | replaced hd _ _ =>
      rw [hl] at hd
      contradiction
  · rintro ⟨hn, rfl⟩
    exact .lowered hn hl

/-- A declined node is a bare negation exactly if its portable form is a value that is one. -/
theorem bareNegation_iff_of_declined {kind : GeometryKind} {op : SpatialOp} {valueKind : ValueKind}
    {shape : Shape} {operands : List (Expr α)} {form : Emulated α}
    (hd : r.native? kind op operands (operands.mapM (compile r)) = none)
    (hf : emulate? kind op operands = some form) :
    BareNegation r negates (.node (.spatial kind op) valueKind shape operands false) ↔
      ∃ e, form = .value e ∧ BareNegation r negates e := by
  constructor
  · intro h
    cases h with
    | lowered _ hl =>
      rw [hd] at hl
      contradiction
    | @replaced _ _ _ _ _ e _ hf' he =>
      rw [hf] at hf'
      exact ⟨e, Option.some.inj hf', he⟩
  · rintro ⟨e, rfl, he⟩
    exact .replaced hd hf he

/-- An SQL text spans, and is exposed exactly if the expression it stands for is a bare negation. -/
def Exposes (q : Quoting) (negates : Bool) (r : Renderer α) (e : Expr α) (sql : String) : Prop :=
  ∃ exposed, Spans q exposed sql ∧ (exposed = true ↔ BareNegation r negates e)

/-- What an expression exposes may stand as an operand. -/
theorem Exposes.operand {e : Expr α} {sql : String} (h : Exposes q negates r e sql) :
    Operand q negates sql := by
  obtain ⟨exposed, hs, hb⟩ := h
  cases negates with
  | true => exact hs.inner
  | false =>
    have hno : exposed = false := by
      by_contra hex
      exact absurd (hb.mp (by simpa using hex)).negates_eq_true (by decide)
    rw [hno] at hs
    exact hs

/-- A spanning text stands for an expression that is no bare negation. -/
theorem exposes_of_spans {e : Expr α} {sql : String} (hs : Spans q false sql)
    (he : ¬ BareNegation r negates e) : Exposes q negates r e sql :=
  ⟨false, hs, by simpa using he⟩

/-- Everything a tidy renderer compiles spans. The induction is along the expressions that a compilation
enters, so that portable forms are covered like operands. -/
theorem Tidy.exposes (ht : Tidy q negates r) {e : Expr α} {sql : String}
    (h : compile r e = .ok sql) : Exposes q negates r e sql := by
  induction hw : e.weight using Nat.strongRecOn generalizing e sql with
  | ind n ih =>
    have hentered {e' : Expr α} {sql' : String} (he : Enters e e') (hc : compile r e' = .ok sql') :
        Exposes q negates r e' sql' :=
      ih e'.weight (hw ▸ he.weight_lt) hc rfl
    cases e with
    | literal value =>
      rw [compile] at h
      obtain rfl := Except.ok.inj h
      exact exposes_of_spans (ht.literalSql value) (by intro hb; cases hb)
    | column c =>
      rw [compile] at h
      obtain rfl := Except.ok.inj h
      exact exposes_of_spans (ht.columnSql c) (by intro hb; cases hb)
    | absent kind =>
      rw [compile] at h
      obtain rfl := Except.ok.inj h
      exact exposes_of_spans (spans_of_closes (by cases q <;> decide)) (by intro hb; cases hb)
    | node op kind shape operands guarded =>
      cases guarded with
      | true =>
        rw [compile] at h
        obtain ⟨subject, hs, rfl⟩ := exists_of_map_eq_ok h
        have hsubject := (hentered (.subject op kind shape operands) hs).operand
        exact exposes_of_spans (Tidy.nullTestSql hsubject.inner) (by intro hb; cases hb)
      | false =>
        have hoperands {args : List String} (ha : operands.mapM (compile r) = .ok args) :
            ∀ arg ∈ args, Operand q negates arg := by
          intro arg harg
          obtain ⟨e', he', hc⟩ := exists_of_mem_mapM ha harg
          exact (hentered (.operand he') hc).operand
        cases op with
        | scalar op =>
          rw [compile, compileAll_eq_mapM] at h
          obtain ⟨args, ha, rfl⟩ := exists_of_map_eq_ok h
          exact exposes_of_spans (ht.scalarSql op fun arg harg => (hoperands ha arg harg).inner)
            (by intro hb; cases hb)
        | spatial geometry op =>
          rcases compile_spatial_cases h with hl | ⟨hd, ⟨e', hf, hc⟩ | ⟨_, text, _, hf, hc, rfl⟩⟩
          · obtain ⟨args, ha, hlower⟩ := exists_of_native?_eq_some hl
            exact ⟨_, ht.lower (ht.rebased op operands (hoperands ha)) hlower,
              (bareNegation_iff_of_lowered hl).symm⟩
          · obtain ⟨exposed, hs, hb⟩ := hentered (.formula hf) hc
            refine ⟨exposed, hs, hb.trans ?_⟩
            rw [bareNegation_iff_of_declined hd hf]
            simp [Emulated.expr]
          · have htext := (hentered (.formula hf) hc).operand
            refine exposes_of_spans (ht.geometryFromText _ htext) ?_
            rw [bareNegation_iff_of_declined hd hf]
            simp

/-- What an expression can be compiled for: standard SQL or a dialect. -/
inductive Target where
  | standard
  | dialect (d : Dialect)
  deriving DecidableEq, Repr

namespace Target

/-- The renderer of a target. -/
def renderer : Target → Renderer Float
  | standard => Renderer.ansi
  | dialect d => d.renderer

/-- The marks around an identifier in a target. -/
def quoting : Target → Quoting
  | standard => .doubleQuotes
  | dialect d => d.quoting

end Target

/-- Whatever texts, names and numbers a tree carries, its SQL is contained in every target. -/
theorem contained_of_compile (t : Target) (e : Expr Float) (sql : String)
    (h : compile t.renderer e = .ok sql) : Contained t.quoting sql := by
  cases t with
  | standard =>
    obtain ⟨exposed, hs, -⟩ := tidy_ansi.exposes h
    exact hs.contained
  | dialect d =>
    obtain ⟨exposed, hs, -⟩ := (tidy_renderer d).exposes h
    exact hs.contained

/-- A text and a table name that try to end their quotes and the statement. -/
def hostileConcat : Expr Float :=
  .node (.scalar .concat) .text .binary
    [.literal (.text "'); --"), .column ⟨⟨"t]; /*", none⟩, "c", .text⟩] false

theorem contained_of_compile_hostileConcat :
    compile (Target.dialect .sqlserver).renderer hostileConcat = .ok "('''); --' + [t]]; /*].[c])" ∧
      Contained .brackets "('''); --' + [t]]; /*].[c])" := by
  have h : compile (Target.dialect .sqlserver).renderer hostileConcat =
      .ok "('''); --' + [t]]; /*].[c])" := by
    simp only [hostileConcat, compile, compileAll, Except.map]
    rfl
  exact ⟨h, contained_of_compile (.dialect .sqlserver) _ _ h⟩

/-- The SQL of a tree in a dialect is self-delimited exactly if it is no bare negation. -/
theorem selfDelimited_iff_not_bareNegation (d : Dialect) (e : Expr Float) (sql : String)
    (h : d.compile e = .ok sql) :
    SelfDelimited d.quoting sql ↔ ¬ BareNegation d.renderer (negatesByPrefix d) e := by
  obtain ⟨exposed, hs, hb⟩ := (tidy_renderer d).exposes h
  rw [hs.selfDelimited_iff, ← hb, Bool.not_eq_true]

/-- An inequality of two points. -/
def pointsDiffer : Expr Float :=
  .node (.spatial .point .notEquals) .boolean .binary
    [.column ⟨⟨"t", none⟩, "a", .geometry .point⟩, .column ⟨⟨"t", none⟩, "b", .geometry .point⟩] false

theorem selfDelimited_iff_not_bareNegation_pointsDiffer :
    Dialect.compile .postgres pointsDiffer = .ok "NOT ST_Equals(\"t\".\"a\", \"t\".\"b\")" ∧
      (SelfDelimited .doubleQuotes "NOT ST_Equals(\"t\".\"a\", \"t\".\"b\")" ↔
        ¬ BareNegation Dialect.postgres.renderer true pointsDiffer) := by
  have h : Dialect.compile .postgres pointsDiffer =
      .ok "NOT ST_Equals(\"t\".\"a\", \"t\".\"b\")" := by
    simp only [Dialect.compile, pointsDiffer, compile, compileAll, Except.map]
    rfl
  exact ⟨h, selfDelimited_iff_not_bareNegation .postgres _ _ h⟩

/-- The inequality is not enclosed, and in a null test its negation takes in the test. -/
theorem pointsDiffer_not_selfDelimited :
    Dialect.compile .postgres pointsDiffer = .ok "NOT ST_Equals(\"t\".\"a\", \"t\".\"b\")" ∧
      ¬ SelfDelimited Dialect.postgres.quoting "NOT ST_Equals(\"t\".\"a\", \"t\".\"b\")" ∧
      Dialect.compile .postgres (.node (.scalar .isNull) .boolean .unary [pointsDiffer] false) =
        .ok "(NOT ST_Equals(\"t\".\"a\", \"t\".\"b\") IS NULL)" := by
  refine ⟨?_, ?_, ?_⟩
  · simp only [Dialect.compile, pointsDiffer, compile, compileAll, Except.map]
    rfl
  · have hcall : Spans Dialect.postgres.quoting false "ST_Equals(\"t\".\"a\", \"t\".\"b\")" :=
      spans_of_closes (by decide)
    have hspans : Spans Dialect.postgres.quoting true "NOT ST_Equals(\"t\".\"a\", \"t\".\"b\")" :=
      spans_not hcall
    rw [hspans.selfDelimited_iff]
    decide
  · simp only [Dialect.compile, pointsDiffer, compile, compileAll, Except.map]
    rfl

end Sql

end SpatialSql
