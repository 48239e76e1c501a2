import SpatialSql.Proofs.Compile.Completeness

/-!
# Portable forms keep kinds

A portable form has the kind of the node it stands in for. On the way to it a formula takes
bare expressions for values of a kind: the members of a construction for numbers, a node it
has just made for a text, an operand for a polygon. `casts` lists these for every operator,
one function for each function of the formulas, and each of them is right on well-kinded
operands. So nothing is taken for what it is not, neither by the typed builders nor by the
formulas that a compilation goes through.
-/

namespace SpatialSql.Emulation

open SpatialSql.Expr

variable {α : Type}

/-- An expression that is taken for a value of a kind. -/
structure Cast (α : Type) where
  kind : ValueKind
  expr : Expr α

/-- The expression has the kind it is taken for. -/
def Cast.Holds (c : Cast α) : Prop := c.expr.kind = c.kind

instance (c : Cast α) : Decidable c.Holds := inferInstanceAs (Decidable (c.expr.kind = c.kind))

/-- The coordinates of a point are taken for numbers. -/
def coordinateCasts (p : Expr α) : List (Cast α) :=
  [⟨.number, coordinate .x p⟩, ⟨.number, coordinate .y p⟩]

/-- The members of a point are taken for its coordinates, other members for points. -/
def constructCasts (kind : GeometryKind) (members : List (Expr α)) : List (Cast α) :=
  match kind with
  | .point =>
    [⟨.number, members[0]?.getD (.absent .number)⟩, ⟨.number, members[1]?.getD (.absent .number)⟩]
  | .line | .segment | .multiPoint | .polygon => members.flatMap coordinateCasts

section Numeral

variable [Numeral α]

/-- The text of a geometry is taken for a text; that of a construction is put together from its
members. -/
def textCasts (kind : GeometryKind) (g : Expr α) : List (Cast α) :=
  ⟨.text, textOf kind g⟩ ::
    match g with
    | .node (.spatial _ .construct) _ _ members false => constructCasts kind members
    | _ => []

/-- The ends of a segment are taken from its members or from its text. -/
def endsCasts (s : Expr α) : List (Cast α) :=
  match s.spatialOperands? .construct with
  | some [start, stop] => coordinateCasts start ++ coordinateCasts stop
  | _ => textCasts .segment s

/-- A side of a box is taken for a number, and so is whatever it is found from. -/
def boundCasts (kind : GeometryKind) (side : Side) (g : Expr α) : List (Cast α) :=
  ⟨.number, boundOf kind side g⟩ ::
    if kind = .point then []
    else
      match g with
      | .node (.spatial _ .construct) _ _ members _ =>
        members.map fun m => ⟨.number, coordinate side.axis m⟩
      | .node (.spatial inner .boundingBox) _ _ operands _
      | .node (.spatial inner .extent) _ _ operands _ =>
        operands.head?.toList.map fun g => ⟨.number, boundOf inner side g⟩
      | g => if kind = .segment then endsCasts g else []

/-- The four sides of the box around a geometry. -/
def boxCasts (kind : GeometryKind) (g : Expr α) : List (Cast α) :=
  boundCasts kind .minX g ++ boundCasts kind .minY g ++ boundCasts kind .maxX g ++
    boundCasts kind .maxY g

/-- Points are compared by their coordinates, other geometries by their texts. -/
def equalsCasts (kind : GeometryKind) (a b : Expr α) : List (Cast α) :=
  if kind = .point then coordinateCasts a ++ coordinateCasts b
  else textCasts kind a ++ textCasts kind b

/-- What the formulas for one geometry kind take for granted. -/
def kindCasts (kind : GeometryKind) (op : SpatialOp) (args : List (Expr α)) : List (Cast α) :=
  match kind, op, args with
  | .point, .getX, [p] | .point, .getY, [p] => coordinateCasts p ++ textCasts .point p
  | .point, .distanceTo, [p, q] => coordinateCasts p ++ coordinateCasts q
  | .segment, .intersects, [a, b] | .segment, .intersectionPoint, [a, b] =>
    endsCasts a ++ endsCasts b
  | .multiPoint, .numberOfPoints, [points] | .multiPoint, .pointAtIndex, [points, _] =>
    textCasts .multiPoint points
  | .multiPoint, .toLine, [points] =>
    ⟨.geometry .multiPoint, points⟩ :: textCasts .multiPoint points
  | .polygon, .exteriorRing, [p] => textCasts .polygon p
  | _, _, _ => []

/-- What the formulas that need no other formula take for granted. -/
def basicCasts (kind : GeometryKind) (op : SpatialOp) (args : List (Expr α)) : List (Cast α) :=
  match op, args with
  | .construct, members => constructCasts kind members
  | .asText, [g] => textCasts kind g
  | .equals, [a, b] => equalsCasts kind a b
  | .minX, [g] => boundCasts kind .minX g
  | .maxX, [g] => boundCasts kind .maxX g
  | .minY, [g] => boundCasts kind .minY g
  | .maxY, [g] => boundCasts kind .maxY g
  | .boundingBox, [g] | .extent, [g] => boxCasts kind g
  | op, args => kindCasts kind op args

/-- Every expression that the formula of an operator takes for a value of a kind. -/
def casts (kind : GeometryKind) (op : SpatialOp) (args : List (Expr α)) : List (Cast α) :=
  match kind, op, args with
  | kind, .notEquals, [a, b] => ⟨.boolean, folded kind .equals a b⟩ :: basicCasts kind .equals [a, b]
  | kind, .doesNotIntersect, [a, b] =>
    ⟨.boolean, folded kind .intersects a b⟩ :: basicCasts kind .intersects [a, b]
  | .polygon, .overlaps, [a, b] =>
    ⟨.geometry .polygon, a⟩ :: ⟨.geometry .polygon, b⟩ ::
      ⟨.boolean, folded .polygon .intersects a b⟩ :: basicCasts .polygon .intersects [a, b]
  | .polygon, .within, [a, b] => basicCasts .polygon .contains [b, a]
  | kind, op, args => basicCasts kind op args

namespace Inherited

variable {P : ValueKind → Expr α → Prop} (hP : Inherited P)

include hP

omit [Numeral α] in
/-- The coordinates of a point inherit what holds of it. -/
theorem coordinateCasts {p : Expr α} (hp : P (.geometry .point) p) :
    ∀ c ∈ Emulation.coordinateCasts p, P c.kind c.expr := by
  simp [Emulation.coordinateCasts, hP.coordinate _ hp]

omit [Numeral α] in
/-- The coordinates that a construction is made of inherit what holds of its members. -/
theorem constructCasts {kind : GeometryKind} {members : List (Expr α)}
    (h : ∀ m ∈ members, P kind.memberKind m) :
    ∀ c ∈ Emulation.constructCasts kind members, P c.kind c.expr := by
  have hpoints (hk : kind ≠ .point) : ∀ c ∈ members.flatMap Emulation.coordinateCasts,
      P c.kind c.expr := by
    intro c hc
    obtain ⟨m, hm, hc⟩ := List.mem_flatMap.mp hc
    exact hP.coordinateCasts (GeometryKind.memberKind_of_ne hk ▸ h m hm) c hc
  cases kind with
  | point => simp [Emulation.constructCasts, hP.memberAt h]
  | line | segment | multiPoint | polygon => exact hpoints (by decide)

/-- The text of a geometry inherits what holds of it, and so do the members it is put together
from. -/
theorem textCasts {kind : GeometryKind} {g : Expr α} (hg : P (.geometry kind) g) :
    ∀ c ∈ Emulation.textCasts kind g, P c.kind c.expr := by
  refine List.forall_mem_cons.mpr ⟨hP.textOf hg, ?_⟩
  split
  · exact hP.constructCasts fun m hm => hP.member hg hm
  · exact List.forall_mem_nil _

/-- So does what the ends of a segment are taken from. -/
theorem endsCasts {s : Expr α} (hs : P (.geometry .segment) s) :
    ∀ c ∈ Emulation.endsCasts s, P c.kind c.expr := by
  unfold Emulation.endsCasts
  split
  · next start stop hm =>
    have hmembers := hP.members hs hm
    exact List.forall_mem_append.mpr ⟨hP.coordinateCasts (hmembers start (by simp)),
      hP.coordinateCasts (hmembers stop (by simp))⟩
  · exact hP.textCasts hs

/-- A bound inherits what holds of the geometry, and so does whatever it is found from. A box and an
extent are bounded through their first operand. -/
theorem boundCasts {kind : GeometryKind} (side : Side) {g : Expr α} (hg : P (.geometry kind) g) :
    ∀ c ∈ Emulation.boundCasts kind side g, P c.kind c.expr := by
  have hinner {inner : GeometryKind} {op : SpatialOp} {valueKind : ValueKind} {shape : Shape}
      {operands : List (Expr α)} {guarded : Bool} (hop : op.operandKind inner 0 = .geometry inner)
      (hn : P (.geometry kind) (.node (.spatial inner op) valueKind shape operands guarded)) :
      ∀ c ∈ operands.head?.toList.map fun g => (⟨.number, Emulation.boundOf inner side g⟩ : Cast α),
        P c.kind c.expr := by
    intro c hc
    obtain ⟨a, ha, rfl⟩ := List.mem_map.mp hc
    rw [Option.mem_toList, List.head?_eq_getElem?] at ha
    exact hP.boundOf side (hop ▸ hP.operand hn ha)
  refine List.forall_mem_cons.mpr ⟨hP.boundOf side hg, ?_⟩
  split
  · exact List.forall_mem_nil _
  · next hk =>
    split
    · intro c hc
      obtain ⟨m, hm, rfl⟩ := List.mem_map.mp hc
      exact hP.coordinate side.axis (GeometryKind.memberKind_of_ne hk ▸ hP.member hg hm)
    · exact hinner rfl hg
    · exact hinner rfl hg
    · split
      · next hs =>
        subst hs
        exact hP.endsCasts hg
      · exact List.forall_mem_nil _

/-- All four sides of the box do. -/
theorem boxCasts {kind : GeometryKind} {g : Expr α} (hg : P (.geometry kind) g) :
    ∀ c ∈ Emulation.boxCasts kind g, P c.kind c.expr := by
  simp only [Emulation.boxCasts, List.forall_mem_append]
  exact ⟨⟨⟨hP.boundCasts _ hg, hP.boundCasts _ hg⟩, hP.boundCasts _ hg⟩, hP.boundCasts _ hg⟩

/-- What two geometries are compared by inherits what holds of them. -/
theorem equalsCasts {kind : GeometryKind} {a b : Expr α} (ha : P (.geometry kind) a)
    (hb : P (.geometry kind) b) : ∀ c ∈ Emulation.equalsCasts kind a b, P c.kind c.expr := by
  unfold Emulation.equalsCasts
  split
  · next hk =>
    subst hk
    exact List.forall_mem_append.mpr ⟨hP.coordinateCasts ha, hP.coordinateCasts hb⟩
  · exact List.forall_mem_append.mpr ⟨hP.textCasts ha, hP.textCasts hb⟩

section Node

variable {kind : GeometryKind} {op : SpatialOp} {resultKind valueKind : ValueKind} {shape : Shape}
  {operands : List (Expr α)} {guarded : Bool}

/-- What the formulas for one geometry kind take for granted inherits what holds of the node. -/
theorem kindCasts (hn : P resultKind (.node (.spatial kind op) valueKind shape operands guarded)) :
    ∀ c ∈ Emulation.kindCasts kind op operands, P c.kind c.expr := by
  have hfirst {g : Expr α} (hg : operands[0]? = some g) := hP.operand hn hg
  have hsecond {g : Expr α} (hg : operands[1]? = some g) := hP.operand hn hg
  unfold Emulation.kindCasts
  split
  · exact List.forall_mem_append.mpr ⟨hP.coordinateCasts (hfirst rfl), hP.textCasts (hfirst rfl)⟩
  · exact List.forall_mem_append.mpr ⟨hP.coordinateCasts (hfirst rfl), hP.textCasts (hfirst rfl)⟩
  · exact List.forall_mem_append.mpr ⟨hP.coordinateCasts (hfirst rfl),
      hP.coordinateCasts (hsecond rfl)⟩
  · exact List.forall_mem_append.mpr ⟨hP.endsCasts (hfirst rfl), hP.endsCasts (hsecond rfl)⟩
  · exact List.forall_mem_append.mpr ⟨hP.endsCasts (hfirst rfl), hP.endsCasts (hsecond rfl)⟩
  · exact hP.textCasts (hfirst rfl)
  · exact hP.textCasts (hfirst rfl)
  · exact List.forall_mem_cons.mpr ⟨hfirst rfl, hP.textCasts (hfirst rfl)⟩
  · exact hP.textCasts (hfirst rfl)
  · exact List.forall_mem_nil _

/-- So does what the formulas that need no other formula take for granted. -/
theorem basicCasts (hn : P resultKind (.node (.spatial kind op) valueKind shape operands guarded)) :
    ∀ c ∈ Emulation.basicCasts kind op operands, P c.kind c.expr := by
  have hfirst {g : Expr α} (hg : operands[0]? = some g) := hP.operand hn hg
  have hsecond {g : Expr α} (hg : operands[1]? = some g) := hP.operand hn hg
  unfold Emulation.basicCasts
  split
  · exact hP.constructCasts fun m hm => hP.member (hP.result hn) hm
  · exact hP.textCasts (hfirst rfl)
  · exact hP.equalsCasts (hfirst rfl) (hsecond rfl)
  · exact hP.boundCasts _ (hfirst rfl)
  · exact hP.boundCasts _ (hfirst rfl)
  · exact hP.boundCasts _ (hfirst rfl)
  · exact hP.boundCasts _ (hfirst rfl)
  · exact hP.boxCasts (hfirst rfl)
  · exact hP.boxCasts (hfirst rfl)
  · exact hP.kindCasts hn

/-- A property that portable forms inherit holds of everything their formulas take for granted. -/
theorem casts (hn : P resultKind (.node (.spatial kind op) valueKind shape operands guarded)) :
    ∀ c ∈ Emulation.casts kind op operands, P c.kind c.expr := by
  have hfirst {g : Expr α} (hg : operands[0]? = some g) := hP.operand hn hg
  have hsecond {g : Expr α} (hg : operands[1]? = some g) := hP.operand hn hg
  unfold Emulation.casts
  split
  · have htest := hP.equality (.inl rfl) (hfirst rfl) (hsecond rfl)
    exact List.forall_mem_cons.mpr ⟨hP.folded rfl htest, hP.basicCasts htest⟩
  · have htest := hP.meeting hn
    exact List.forall_mem_cons.mpr ⟨hP.folded rfl htest, hP.basicCasts htest⟩
  · have htest := hP.polygons (.inl rfl) (hfirst rfl) (hsecond rfl)
    exact List.forall_mem_cons.mpr ⟨hfirst rfl, List.forall_mem_cons.mpr ⟨hsecond rfl,
      List.forall_mem_cons.mpr ⟨hP.folded rfl htest, hP.basicCasts htest⟩⟩⟩
  · exact hP.basicCasts (hP.polygons (.inr rfl) (hsecond rfl) (hfirst rfl))
  · exact hP.basicCasts hn

end Node

end Inherited

end Numeral

end SpatialSql.Emulation

namespace SpatialSql

open SpatialSql.Expr SpatialSql.Emulation

variable {α : Type} [Numeral α]

/-- What the formula of a well-kinded node takes for a value of a kind has that kind. -/
theorem Expr.WellKinded.casts_hold {kind : GeometryKind} {op : SpatialOp} {valueKind : ValueKind}
    {shape : Shape} {operands : List (Expr α)} {guarded : Bool}
    (h : (node (.spatial kind op) valueKind shape operands guarded).WellKinded) :
    ∀ c ∈ casts kind op operands, c.Holds :=
  fun c hc => (inherited_hasKind.casts ⟨h, rfl⟩ c hc).kind_eq

/-- The portable form of a well-kinded node is well-kinded, of the kind the operator gives or the text
of a geometry of that kind; only a text may be left to the geometry it is the text of. The casts in the
formula hold. Hence, in what the typed builders make, every expression has the kind it is built at, and
so do all those that compiling it takes for a value of a kind. -/
theorem emulation_keeps_kinds :
    (∀ (kind : GeometryKind) (op : SpatialOp) (valueKind : ValueKind) (shape : Shape)
      (operands : List (Expr α)),
      (node (.spatial kind op) valueKind shape operands false).WellKinded →
        (∀ e, emulate? kind op operands = some (.value e) →
          HasKind (op.resultKind kind) e ∨
            op = .asText ∧ operands = [e] ∧ HasKind (.geometry kind) e) ∧
        (∀ k t, emulate? kind op operands = some (.wkt k t) →
          HasKind .text t ∧ op.resultKind kind = .geometry k) ∧
        ∀ c ∈ casts kind op operands, c.Holds) ∧
    ∀ (kind : ValueKind) (e : Expr α), Built kind e →
      e.kind = kind ∧
        ∀ (geometry : GeometryKind) (op : SpatialOp) (valueKind : ValueKind) (shape : Shape)
          (operands : List (Expr α)),
          Relation.ReflTransGen Enters e
              (.node (.spatial geometry op) valueKind shape operands false) →
            ∀ c ∈ casts geometry op operands, c.Holds := by
  constructor
  · intro kind op valueKind shape operands h
    refine ⟨?_, ?_, h.casts_hold⟩
    · intro e hf
      rcases inherited_hasKind.emulate? ⟨h, rfl⟩ hf with hs | ⟨rfl, g, hg, hvalue⟩
      · exact Or.inl hs
      · obtain ⟨a, rfl⟩ := h.takes.exists_one rfl
        cases hvalue
        obtain rfl := List.mem_singleton.mp hg
        exact Or.inr ⟨rfl, rfl, HasKind.operand (i := 0) ⟨h, rfl⟩ rfl⟩
    · intro k t hf
      rcases inherited_hasKind.emulate? ⟨h, rfl⟩ hf with hs | ⟨-, g, -, hvalue⟩
      · exact ⟨hs.2, hs.1⟩
      · contradiction
  · intro kind e h
    refine ⟨h.hasKind.kind_eq, ?_⟩
    intro geometry op valueKind shape operands hr
    exact (h.hasKind.wellKinded.of_reachable hr).casts_hold

end SpatialSql
