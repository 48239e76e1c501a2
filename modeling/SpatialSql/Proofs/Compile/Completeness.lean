import SpatialSql.Proofs.Compile.Outcome
import SpatialSql.Proofs.Kinds.Builders

/-!
# What always compiles

Compilation keeps to well-kinded trees: operands, null subjects and portable forms of
well-kinded expressions are well-kinded. On such a tree only a few operators can lack a
portable form, and an error can only name one of these. PostgreSQL and SQL Server lower all
of them, so that they compile every tree the typed builders make; MySQL lowers all but the
crossing point of two lines, which no portable form brings in.
-/

namespace SpatialSql

open SpatialSql.Expr SpatialSql.Emulation

variable {α : Type}

section Enters

variable [Numeral α] {P : ValueKind → Expr α → Prop}

/-- An inherited property that operands share passes to everything a compilation enters next. -/
theorem Emulation.Inherited.enters (hP : Inherited P)
    (ho : ∀ {op kind shape operands guarded k e}, P k (.node op kind shape operands guarded) →
      e ∈ operands → ∃ k', P k' e)
    {k : ValueKind} {e e' : Expr α} (h : P k e) (he : Enters e e') : ∃ k', P k' e' := by
  cases he with
  | subject op kind shape operands =>
    cases operands with
    | nil => exact ⟨kind, hP.absent kind⟩
    | cons a rest => exact ho h List.mem_cons_self
  | operand he => exact ho h he
  | @formula kind op valueKind shape operands form hf =>
    rcases hP.emulate? h hf with hs | ⟨-, g, hg, rfl⟩
    · cases form with
      | value e => exact ⟨_, hs⟩
      | wkt geometry text => exact ⟨_, hs.2⟩
    · exact ho h hg

/-- An inherited property that operands share holds of everything a compilation enters. -/
theorem Emulation.Inherited.reachable (hP : Inherited P)
    (ho : ∀ {op kind shape operands guarded k e}, P k (.node op kind shape operands guarded) →
      e ∈ operands → ∃ k', P k' e)
    {k : ValueKind} {e e' : Expr α} (h : P k e) (hr : Relation.ReflTransGen Enters e e') :
    ∃ k', P k' e' := by
  induction hr with
  | refl => exact ⟨k, h⟩
  | tail _ he ih =>
    obtain ⟨k', h'⟩ := ih
    exact hP.enters ho h' he

/-- Compilation keeps to well-kinded expressions. -/
theorem Expr.WellKinded.of_reachable {e e' : Expr α} (h : e.WellKinded)
    (hr : Relation.ReflTransGen Enters e e') : e'.WellKinded := by
  have ho {op kind shape operands guarded k} {e : Expr α}
      (h : HasKind k (.node op kind shape operands guarded)) (he : e ∈ operands) :
      ∃ k', HasKind k' e :=
    ⟨e.kind, h.wellKinded.operand he, rfl⟩
  obtain ⟨k, h'⟩ := inherited_hasKind.reachable ho ⟨h, rfl⟩ hr
  exact h'.wellKinded

end Enters

/-- What occurs in a well-kinded expression is well-kinded. -/
theorem Expr.WellKinded.of_occursIn {s e : Expr α} (h : e.WellKinded) (ho : s.OccursIn e) :
    s.WellKinded := by
  induction ho with
  | self => exact h
  | operand he _ ih => exact ih (h.operand he)

namespace Expr

/-- A node with the given operator occurs in an expression. -/
def Mentions (kind : GeometryKind) (op : SpatialOp) (e : Expr α) : Prop :=
  ∃ valueKind shape operands guarded,
    (node (.spatial kind op) valueKind shape operands guarded).OccursIn e

variable {kind : GeometryKind} {op : SpatialOp}

/-- A node mentions its own operator and what its operands mention. -/
theorem mentions_node {op' : Op} {valueKind : ValueKind} {shape : Shape} {operands : List (Expr α)}
    {guarded : Bool} :
    (node op' valueKind shape operands guarded).Mentions kind op ↔
      op' = .spatial kind op ∨ ∃ e ∈ operands, e.Mentions kind op := by
  constructor
  · rintro ⟨k, s, os, g, ho⟩
    cases ho with
    | self => exact .inl rfl
    | operand he hs => exact .inr ⟨_, he, k, s, os, g, hs⟩
  · rintro (rfl | ⟨e, he, k, s, os, g, hs⟩)
    · exact ⟨_, _, _, _, .self⟩
    · exact ⟨k, s, os, g, .operand he hs⟩

theorem not_mentions_literal (value : Literal α) : ¬ (literal value).Mentions kind op := by
  rintro ⟨k, s, os, g, ho⟩
  cases ho

theorem not_mentions_absent (k : ValueKind) : ¬ (absent k : Expr α).Mentions kind op := by
  rintro ⟨k, s, os, g, ho⟩
  cases ho

/-- No portable form brings in the crossing point of two lines. -/
theorem inherited_not_mentions_crossing :
    Inherited fun _ (e : Expr α) => ¬ e.Mentions .line .intersectionPoint where
  literal value := not_mentions_literal value
  absent k := not_mentions_absent k
  scalar {op kind shape kinds operands} ht _ ho := by
    clear ht
    have hall : ∀ e ∈ operands, ¬ e.Mentions .line .intersectionPoint := by
      induction ho with
      | nil => simp
      | cons he _ ih => simpa using ⟨he, ih⟩
    simpa [Expr.scalar, apply, mentions_node] using hall
  case hc hv ho := by simp [scalar, apply, mentions_node, hc, hv, ho]
  grouped hop _ ha := by simp [scalar, apply, mentions_node, ha]
  part h he := fun hm => h (mentions_node.mpr (.inr ⟨_, he, hm⟩))
  operand h he := fun hm => h (mentions_node.mpr (.inr ⟨_, List.mem_of_getElem? he, hm⟩))
  member h he := fun hm => h (mentions_node.mpr (.inr ⟨_, he, hm⟩))
  result h := h
  getter axis p hp _ := by
    cases axis <;> simp [Axis.getter, spatial₁, spatial, apply, mentions_node, hp]
  wellKnownText hg _ := by simp [spatial₁, spatial, apply, mentions_node, hg]
  side side kind g hg _ := by
    rcases side with ⟨_ | _, _ | _⟩ <;> simp [Side.op, spatial₁, spatial, apply, mentions_node, hg]
  size h := by simp [spatial₁, spatial, apply, mentions_node, h]
  line h := by simpa [construct, spatial, apply, mentions_node] using h
  equality hop ha hb := by
    rcases hop with rfl | rfl <;> simp [spatial₂, spatial, apply, mentions_node, ha, hb]
  polygons hop ha hb := by
    rcases hop with rfl | rfl <;> simp [spatial₂, spatial, apply, mentions_node, ha, hb]
  region ha hb := by simp [intersection, spatial₂, spatial, apply, mentions_node, ha, hb]
  meeting h := by
    simp only [mentions_node, not_or] at h
    simpa [spatial₂, spatial, apply, mentions_node] using h.2

end Expr

/-- The operators that can lack a portable form on operands of the right kinds. -/
def SpatialOp.mayLackForm (op : SpatialOp) (kind : GeometryKind) : Bool :=
  match op with
  | minX | maxX | minY | maxY => kind = .line ∨ kind = .multiPoint ∨ kind = .polygon
  | intersects => kind = .line ∨ kind = .polygon
  | intersectionPoint | intersectionPoints => kind = .line
  | intersection | contains | containsPoint | touches | area => kind = .polygon
  | pointAtIndex => kind = .multiPoint
  | _ => false

section Forms

variable [Numeral α]

/-- A segment has bounds in terms of its ends, however it is given. A construction has two members,
so the extreme of their coordinates exists. -/
theorem exists_segmentBound (side : Side) {g : Expr α} (hg : HasKind (.geometry .segment) g) :
    ∃ e, emulateBound? .segment side g = some e := by
  have hkind := hg.kind_eq
  unfold emulateBound?
  split
  · exact ⟨_, rfl⟩
  · unfold nodeBound?
    split
    · next members _ _ =>
      cases hg.wellKinded with
      | spatial ht _ =>
        cases hkind
        have hcount : members.length = 2 := by
          simpa [SpatialOp.acceptsCount, SpatialOp.arity?] using ht.count
        obtain ⟨a, b, rfl⟩ := List.length_eq_two.mp hcount
        exact ⟨_, rfl⟩
    · cases hg.wellKinded with
      | spatial _ _ => cases hkind
    · cases hg.wellKinded with
      | spatial _ _ => cases hkind
    · simp only [if_true]
      split
      · exact ⟨_, rfl⟩
      · exact ⟨_, rfl⟩

/-- Points and segments have bounds. -/
theorem exists_bound (side : Side) {kind : GeometryKind} {g : Expr α}
    (hg : HasKind (.geometry kind) g) (hk : side.op.mayLackForm kind = false) :
    ∃ form, (emulateBound? kind side g).map Emulated.value = some form := by
  have hcases : kind = .point ∨ kind = .segment := by
    revert hk
    rcases side with ⟨_ | _, _ | _⟩ <;> cases kind <;> decide
  rcases hcases with rfl | rfl
  · exact ⟨.value (boundOf .point side g), by simp [emulateBound?]⟩
  · obtain ⟨e, he⟩ := exists_segmentBound side hg
    exact ⟨.value e, by rw [he]; rfl⟩

/-- Two segments have a formula for meeting and for the point where they meet. -/
theorem exists_segmentForm {op : SpatialOp} (hop : op = .intersects ∨ op = .intersectionPoint)
    (a b : Expr α) : ∃ form, emulateSegment? op a b = some form := by
  unfold emulateSegment?
  split
  · rcases hop with rfl | rfl
    · exact ⟨_, rfl⟩
    · simp only [onSegments?]
      split <;> exact ⟨_, rfl⟩
  · rcases hop with rfl | rfl <;> exact ⟨_, rfl⟩

/-- Every other operator has a portable form on operands of the right kinds. -/
theorem Expr.WellKinded.exists_form {kind : GeometryKind} {op : SpatialOp} {valueKind : ValueKind}
    {shape : Shape} {operands : List (Expr α)} {guarded : Bool}
    (h : (node (.spatial kind op) valueKind shape operands guarded).WellKinded)
    (hm : op.mayLackForm kind = false) : ∃ form, emulate? kind op operands = some form := by
  have ht := h.takes
  have hoffered := ht.offered
  have hnode : HasKind valueKind (node (.spatial kind op) valueKind shape operands guarded) := ⟨h, rfl⟩
  have hfirst {g : Expr α} (hg : operands[0]? = some g) := hnode.operand hg
  cases op with
  | construct => exact ⟨_, rfl⟩
  | equals | notEquals =>
    obtain ⟨a, b, rfl⟩ := ht.exists_two rfl
    exact ⟨_, rfl⟩
  | asText | boundingBox | measurableDimensions | spatialDimensions | hasMagnitude | magnitude
  | extent =>
    obtain ⟨a, rfl⟩ := ht.exists_one rfl
    exact ⟨_, rfl⟩
  | minX =>
    obtain ⟨a, rfl⟩ := ht.exists_one rfl
    exact exists_bound .minX (hfirst rfl) hm
  | maxX =>
    obtain ⟨a, rfl⟩ := ht.exists_one rfl
    exact exists_bound .maxX (hfirst rfl) hm
  | minY =>
    obtain ⟨a, rfl⟩ := ht.exists_one rfl
    exact exists_bound .minY (hfirst rfl) hm
  | maxY =>
    obtain ⟨a, rfl⟩ := ht.exists_one rfl
    exact exists_bound .maxY (hfirst rfl) hm
  | getX | getY | numberOfPoints | toLine | exteriorRing =>
    obtain ⟨a, rfl⟩ := ht.exists_one rfl
    obtain rfl := of_decide_eq_true hoffered
    exact ⟨_, rfl⟩
  | distanceTo | doesNotIntersect | overlaps | within =>
    obtain ⟨a, b, rfl⟩ := ht.exists_two rfl
    obtain rfl := of_decide_eq_true hoffered
    exact ⟨_, rfl⟩
  | intersects =>
    obtain ⟨a, b, rfl⟩ := ht.exists_two rfl
    have hk : kind = .segment := by
      revert hoffered hm
      cases kind <;> decide
    subst hk
    exact exists_segmentForm (.inl rfl) a b
  | intersectionPoint =>
    obtain ⟨a, b, rfl⟩ := ht.exists_two rfl
    have hk : kind = .segment := by
      revert hoffered hm
      cases kind <;> decide
    subst hk
    exact exists_segmentForm (.inr rfl) a b
  | intersectionPoints | intersection | contains | containsPoint | touches | area | pointAtIndex =>
    exact absurd (hoffered.symm.trans hm) (by decide)
  | toPolygon => contradiction

end Forms

section Errors

variable [Numeral α] {r : Renderer α}

/-- On a well-kinded tree an error names an operator that can lack a portable form, at a node over
operands of the right number that the renderer declines. -/
theorem Expr.WellKinded.error_cases {e : Expr α} (h : e.WellKinded) {error : Error}
    (hc : compile r e = .error error) :
    ∃ kind op valueKind shape operands args,
      Relation.ReflTransGen Enters e (.node (.spatial kind op) valueKind shape operands false) ∧
      op.mayLackForm kind = true ∧ op.acceptsCount kind args.length = true ∧
      r.lower kind op args = none ∧ error = .noEmulation kind op r.name := by
  obtain ⟨e', hr, hs⟩ := exists_stuck_of_error hc
  have h' := h.of_reachable hr
  cases hs with
  | @intro kind op valueKind shape operands args ha hl hf =>
    refine ⟨kind, op, valueKind, shape, operands, _, hr, ?_, ?_, hl, rfl⟩
    · by_contra hm
      obtain ⟨form, hform⟩ := h'.exists_form (by simpa using hm)
      rw [hf] at hform
      contradiction
    · have hcount := h'.takes.count
      rw [List.length_map] at hcount
      rwa [r.length_rebased, ← (mapM_eq_ok_iff.mp ha).length_eq]

/-- A renderer that lowers the operators without a portable form, as far as a tree leads to them,
compiles the tree. -/
theorem Expr.WellKinded.exists_compile {e : Expr α} (h : e.WellKinded)
    (hl : ∀ kind op valueKind shape operands (args : List String),
      Relation.ReflTransGen Enters e (.node (.spatial kind op) valueKind shape operands false) →
      op.mayLackForm kind = true → op.acceptsCount kind args.length = true →
      (r.lower kind op args).isSome) :
    ∃ sql, compile r e = .ok sql := by
  cases hc : compile r e with
  | ok sql => exact ⟨sql, rfl⟩
  | error error =>
    obtain ⟨kind, op, valueKind, shape, operands, args, hr, hm, ha, hn, -⟩ := h.error_cases hc
    have hsome := hl kind op valueKind shape operands args hr hm ha
    rw [hn] at hsome
    contradiction

end Errors

section Lowering

variable {kind : GeometryKind} {op : SpatialOp} {args : List String}

/-- PostgreSQL lowers every operator that can lack a portable form. -/
theorem Dialect.Postgres.isSome_lower (hm : op.mayLackForm kind = true) :
    (lower kind op args).isSome := by
  cases op with
  | minX | maxX | minY | maxY | intersects | intersectionPoint | intersectionPoints | intersection
  | contains | containsPoint | touches | area | pointAtIndex => rfl
  | construct | equals | notEquals | asText | getX | getY | boundingBox | measurableDimensions
  | spatialDimensions | hasMagnitude | magnitude | distanceTo | doesNotIntersect | overlaps | within
  | exteriorRing | numberOfPoints | toLine | toPolygon | extent => contradiction

/-- SQL Server lowers every operator that can lack a portable form, on the right number of
arguments. -/
theorem Dialect.SqlServer.isSome_lower (hm : op.mayLackForm kind = true)
    (hc : op.acceptsCount kind args.length = true) : (lower kind op args).isSome := by
  cases op with
  | minX | maxX | minY | maxY | area =>
    obtain ⟨a, rfl⟩ := List.length_eq_one_iff.mp (SpatialOp.eq_of_acceptsCount hc rfl)
    rfl
  | intersects | intersectionPoint | intersectionPoints | intersection | contains | containsPoint
  | touches | pointAtIndex =>
    obtain ⟨a, b, rfl⟩ := List.length_eq_two.mp (SpatialOp.eq_of_acceptsCount hc rfl)
    rfl
  | construct | equals | notEquals | asText | getX | getY | boundingBox | measurableDimensions
  | spatialDimensions | hasMagnitude | magnitude | distanceTo | doesNotIntersect | overlaps | within
  | exteriorRing | numberOfPoints | toLine | toPolygon | extent => contradiction

/-- MySQL lowers every operator that can lack a portable form but one, on the right number of
arguments. -/
theorem Dialect.MySql.isSome_lower (hm : op.mayLackForm kind = true)
    (hc : op.acceptsCount kind args.length = true)
    (hne : ¬ (kind = .line ∧ op = .intersectionPoint)) : (lower kind op args).isSome := by
  cases op with
  | minX | maxX | minY | maxY =>
    obtain ⟨a, rfl⟩ := List.length_eq_one_iff.mp (SpatialOp.eq_of_acceptsCount hc rfl)
    rfl
  | intersectionPoint => exact absurd ⟨of_decide_eq_true hm, rfl⟩ hne
  | intersects | intersectionPoints | intersection | contains | containsPoint | touches | area
  | pointAtIndex => rfl
  | construct | equals | notEquals | asText | getX | getY | boundingBox | measurableDimensions
  | spatialDimensions | hasMagnitude | magnitude | distanceTo | doesNotIntersect | overlaps | within
  | exteriorRing | numberOfPoints | toLine | toPolygon | extent => contradiction

end Lowering

section Results

variable [Numeral α]

/-- No compilation comes to the crossing point of two lines unless the tree mentions it. -/
theorem Expr.not_mentions_of_reachable {e e' : Expr α} (h : ¬ e.Mentions .line .intersectionPoint)
    (hr : Relation.ReflTransGen Enters e e') : ¬ e'.Mentions .line .intersectionPoint := by
  obtain ⟨-, h'⟩ := inherited_not_mentions_crossing.reachable (k := e.kind)
    (fun h he => ⟨e.kind, fun hm => h (mentions_node.mpr (.inr ⟨_, he, hm⟩))⟩) h hr
  exact h'

/-- Typed builders make well-kinded trees. Every well-kinded tree compiles for PostgreSQL and for SQL
Server, and for MySQL unless it mentions the crossing point of two lines. -/
theorem dialects_complete :
    (∀ (kind : ValueKind) (e : Expr α), Built kind e → HasKind kind e) ∧
    ∀ e : Expr α, e.WellKinded →
      (∃ sql, Dialect.compile .postgres e = .ok sql) ∧
      (∃ sql, Dialect.compile .sqlserver e = .ok sql) ∧
      (¬ e.Mentions .line .intersectionPoint → ∃ sql, Dialect.compile .mysql e = .ok sql) := by
  refine ⟨fun kind e h => h.hasKind, fun e h => ⟨?_, ?_, ?_⟩⟩
  · exact h.exists_compile fun _ _ _ _ _ _ _ hm _ => Dialect.Postgres.isSome_lower hm
  · exact h.exists_compile fun _ _ _ _ _ _ _ hm hc => Dialect.SqlServer.isSome_lower hm hc
  · intro hn
    refine h.exists_compile fun kind op valueKind shape operands args hr hm hc => ?_
    refine Dialect.MySql.isSome_lower hm hc ?_
    rintro ⟨rfl, rfl⟩
    exact not_mentions_of_reachable hn hr ⟨_, _, _, _, .self⟩

/-- A column that holds values of the given kind. -/
def stored (kind : ValueKind) : Expr α := .column ⟨⟨"t", none⟩, "c", kind⟩

/-- Standard SQL fails on a node over columns that has no portable form. -/
theorem compile_ansi_of_stored {kind : GeometryKind} {op : SpatialOp} {valueKind : ValueKind}
    {shape : Shape} (kinds : List ValueKind)
    (hf : emulate? kind op (kinds.map (stored (α := α))) = none) :
    compile (α := α) .ansi (.node (.spatial kind op) valueKind shape (kinds.map stored) false) =
      .error (.noEmulation kind op "ansi") := by
  have hargs : ∃ args, (kinds.map (stored (α := α))).mapM (compile .ansi) = .ok args := by
    refine exists_mapM_eq_ok fun e he => ?_
    obtain ⟨k, -, rfl⟩ := List.mem_map.mp he
    exact ⟨_, by rw [stored, compile]⟩
  obtain ⟨args, ha⟩ := hargs
  rw [compile_eq_compileStep, compileStep]
  simp only [ha, hf]
  rfl

/-- Every operator listed as lacking a portable form lacks it on columns. -/
theorem exists_built_error {kind : GeometryKind} {op : SpatialOp} (hm : op.mayLackForm kind = true) :
    ∃ (valueKind : ValueKind) (e : Expr α), Built valueKind e ∧
      compile .ansi e = .error (.noEmulation kind op "ansi") := by
  have hstored (k : ValueKind) : Built k (stored (α := α) k) :=
    .column ⟨⟨"t", none⟩, "c", k⟩
  have hone (hop : op ∈ SpatialOp.shared ++ kind.own)
      (hf : emulate? kind op ([.geometry kind].map (stored (α := α))) = none) :
      ∃ (valueKind : ValueKind) (e : Expr α), Built valueKind e ∧
        compile .ansi e = .error (.noEmulation kind op "ansi") :=
    ⟨_, _, .measure hop (hstored _), compile_ansi_of_stored _ hf⟩
  have htwo (hop : op ∈ kind.paired)
      (hf : emulate? kind op ([.geometry kind, .geometry kind].map (stored (α := α))) = none) :
      ∃ (valueKind : ValueKind) (e : Expr α), Built valueKind e ∧
        compile .ansi e = .error (.noEmulation kind op "ansi") :=
    ⟨_, _, .relate hop (hstored _) (hstored _), compile_ansi_of_stored _ hf⟩
  cases op with
  | minX | maxX | minY | maxY =>
    rcases of_decide_eq_true hm with rfl | rfl | rfl
    · exact hone (by decide) rfl
    · exact hone (by decide) rfl
    · exact hone (by decide) rfl
  | area =>
    obtain rfl := of_decide_eq_true hm
    exact hone (by decide) rfl
  | intersects =>
    rcases of_decide_eq_true hm with rfl | rfl
    · exact htwo (by decide) rfl
    · exact htwo (by decide) rfl
  | intersectionPoint | intersectionPoints | intersection | contains | touches =>
    obtain rfl := of_decide_eq_true hm
    exact htwo (by decide) rfl
  | containsPoint =>
    obtain rfl := of_decide_eq_true hm
    exact ⟨_, _, .containsPoint (hstored _) (hstored _),
      compile_ansi_of_stored [.geometry .polygon, .geometry .point] rfl⟩
  | pointAtIndex =>
    obtain rfl := of_decide_eq_true hm
    exact ⟨_, _, .pointAt (hstored _) (hstored _),
      compile_ansi_of_stored [.geometry .multiPoint, .number] rfl⟩
  | construct | equals | notEquals | asText | getX | getY | boundingBox | measurableDimensions
  | spatialDimensions | hasMagnitude | magnitude | distanceTo | doesNotIntersect | overlaps | within
  | exteriorRing | numberOfPoints | toLine | toPolygon | extent => contradiction

/-- Which operators can fail is fixed. Whatever a renderer lowers, an error on a tree of typed
builders names the renderer and an operator that can lack a portable form, and each of these operators
does fail on some tree; every other operator in such a tree has a portable form of its own. -/
theorem errors_of_built :
    (∀ (r : Renderer α) (valueKind : ValueKind) (e : Expr α) (error : Error), Built valueKind e →
      compile r e = .error error →
      ∃ kind op, op.mayLackForm kind = true ∧ error = .noEmulation kind op r.name) ∧
    (∀ (kind : GeometryKind) (op : SpatialOp), op.mayLackForm kind = true →
      ∃ (r : Renderer α) (valueKind : ValueKind) (e : Expr α), Built valueKind e ∧
        compile r e = .error (.noEmulation kind op r.name)) ∧
    ∀ (valueKind : ValueKind) (e : Expr α), Built valueKind e →
      ∀ (kind : GeometryKind) (op : SpatialOp) (k : ValueKind) (shape : Shape)
        (operands : List (Expr α)) (guarded : Bool),
        (Expr.node (.spatial kind op) k shape operands guarded).OccursIn e →
        op.mayLackForm kind = false → ∃ form, emulate? kind op operands = some form := by
  refine ⟨?_, ?_, ?_⟩
  · intro r valueKind e error h hc
    obtain ⟨kind, op, _, _, _, _, -, hm, -, -, he⟩ := h.hasKind.wellKinded.error_cases hc
    exact ⟨kind, op, hm, he⟩
  · intro kind op hm
    obtain ⟨valueKind, e, h, hc⟩ := exists_built_error (α := α) hm
    exact ⟨Renderer.ansi, valueKind, e, h, hc⟩
  · intro valueKind e h kind op k shape operands guarded ho hm
    exact (h.hasKind.wellKinded.of_occursIn ho).exists_form hm

end Results

end SpatialSql
