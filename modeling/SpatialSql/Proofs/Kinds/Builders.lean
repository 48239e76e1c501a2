import SpatialSql.Proofs.Kinds.Forms

/-!
# Builders respect kinds

`Built` collects the expressions that programs of typed builders make: it has one rule for
each builder, whose operands are built at the kinds the builder asks for. Builders decide,
merge and hand back operands, so what they make is not always the node they are named for;
all the same it is well-kinded, at the kind the builder promises.
-/

namespace SpatialSql

open SpatialSql.Expr SpatialSql.Emulation

variable {α : Type}

/-- The four bounds are offered for every geometry and are numbers. -/
theorem Side.op_takes (side : Side) (kind : GeometryKind) :
    side.op.offeredFor kind = true ∧ side.op.arity? = some 1 ∧
      side.op.resultKind kind = .number := by
  rcases side with ⟨_ | _, _ | _⟩ <;> exact ⟨rfl, rfl, rfl⟩

namespace Expr

/-- A node that constructs a geometry from members of the right kind and number. -/
theorem hasKind_construct {kind : GeometryKind} {members : List (Expr α)}
    (hc : SpatialOp.construct.acceptsCount kind members.length = true)
    (hm : ∀ m ∈ members, HasKind kind.memberKind m) :
    HasKind (.geometry kind) (construct kind members) := by
  refine ⟨.spatial ⟨rfl, by rwa [List.length_map], ?_⟩ fun m h => (hm m h).wellKinded, rfl⟩
  intro i k hk
  rw [List.getElem?_map, Option.map_eq_some_iff] at hk
  obtain ⟨m, hi, rfl⟩ := hk
  exact (hm m (List.mem_of_getElem? hi)).kind_eq

/-- A node over one geometry. -/
theorem hasKind_spatial₁ {kind : GeometryKind} (op : SpatialOp) {g : Expr α}
    (hk : op.offeredFor kind = true) (ha : op.arity? = some 1) (hg : HasKind (.geometry kind) g) :
    HasKind (op.resultKind kind) (spatial₁ kind op g) :=
  hasKind_spatial (SpatialOp.takes_one hk ha) (.cons hg .nil)

/-- A node over a geometry and a second operand. -/
theorem hasKind_spatial₂ {kind : GeometryKind} (op : SpatialOp) {a b : Expr α}
    (hk : op.offeredFor kind = true) (hn : op.arity? = some 2) (ha : HasKind (.geometry kind) a)
    (hb : HasKind (op.operandKind kind 1) b) :
    HasKind (op.resultKind kind) (spatial₂ kind op a b) :=
  hasKind_spatial (SpatialOp.takes_two hk hn) (.cons ha (.cons hb .nil))

/-- The operands of a well-kinded spatial node have the kinds its operator takes. -/
theorem HasKind.operand {kind valueKind : ValueKind} {geometry : GeometryKind} {op : SpatialOp}
    {shape : Shape} {operands : List (Expr α)} {guarded : Bool} {i : Nat} {e : Expr α}
    (h : HasKind kind (.node (.spatial geometry op) valueKind shape operands guarded))
    (he : operands[i]? = some e) : HasKind (op.operandKind geometry i) e := by
  refine ⟨h.wellKinded.operand (List.mem_of_getElem? he), ?_⟩
  exact h.wellKinded.takes.operand i e.kind (by rw [List.getElem?_map, he]; rfl)

/-- Being well-kinded is inherited: portable forms have the kinds of the nodes they stand in for. -/
theorem inherited_hasKind : Inherited (α := α) HasKind where
  literal value := ⟨.literal value, rfl⟩
  absent kind := ⟨.absent kind, rfl⟩
  scalar ht _ ho := hasKind_scalar ht ho
  case hc hv ho := by
    rw [hv.kind_eq]
    exact hasKind_scalar rfl (.cons hc (.cons hv (.cons ho .nil)))
  grouped hop _ ha := by
    rcases hop with rfl | rfl
    · exact hasKind_scalar rfl (.cons ha .nil)
    · exact hasKind_scalar rfl (.cons ha .nil)
  part h he := by
    refine ⟨h.wellKinded.operand he, ?_⟩
    cases h.wellKinded with
    | scalar ht _ =>
      simp only [ScalarOp.takes, decide_eq_true_eq] at ht
      exact ht.2 _ (List.mem_map_of_mem he)
  operand h he := h.operand he
  member h he := by
    obtain ⟨i, hi⟩ := List.mem_iff_getElem?.mp he
    have hkind := h.kind_eq
    cases h.wellKinded with
    | spatial _ _ =>
      cases hkind
      exact h.operand hi
  result h := by
    cases h.wellKinded with
    | spatial _ _ => exact ⟨h.wellKinded, rfl⟩
  getter axis p hp _ := by
    cases axis with
    | x => exact hasKind_spatial₁ .getX rfl rfl hp
    | y => exact hasKind_spatial₁ .getY rfl rfl hp
  wellKnownText hg _ := hasKind_spatial₁ .asText rfl rfl hg
  side side kind g hg _ := by
    obtain ⟨hk, ha, hr⟩ := side.op_takes kind
    exact hr ▸ hasKind_spatial₁ side.op hk ha hg
  size h := hasKind_spatial₁ .numberOfPoints rfl rfl h
  line h := hasKind_construct rfl h
  equality hop ha hb := by
    rcases hop with rfl | rfl
    · exact hasKind_spatial₂ .equals rfl rfl ha hb
    · exact hasKind_spatial₂ .notEquals rfl rfl ha hb
  polygons hop ha hb := by
    rcases hop with rfl | rfl
    · exact hasKind_spatial₂ .intersects rfl rfl ha hb
    · exact hasKind_spatial₂ .contains rfl rfl ha hb
  region ha hb := hasKind_spatial₂ .intersection rfl rfl ha hb
  meeting {kind geometry valueKind shape guarded a b} h := by
    have hpolygon : geometry = .polygon := by
      simpa [SpatialOp.offeredFor] using h.wellKinded.takes.offered
    subst hpolygon
    exact hasKind_spatial₂ .intersects rfl rfl (h.operand (i := 0) rfl) (h.operand (i := 1) rfl)

end Expr

/-- The operators on one geometry that have a builder for every kind. -/
def SpatialOp.shared : List SpatialOp :=
  [asText, minX, maxX, minY, maxY, measurableDimensions, spatialDimensions, hasMagnitude, magnitude,
    extent]

namespace GeometryKind

/-- The operators on one geometry that have a builder for this kind alone. -/
def own : GeometryKind → List SpatialOp
  | point => [.getX, .getY]
  | line | segment => []
  | multiPoint => [.numberOfPoints]
  | polygon => [.area, .exteriorRing]

/-- The operators on two geometries of this kind that have a builder. -/
def paired : GeometryKind → List SpatialOp
  | point => [.equals, .notEquals, .distanceTo]
  | line => [.equals, .notEquals, .intersects, .intersectionPoint, .intersectionPoints]
  | segment => [.equals, .notEquals, .intersects, .intersectionPoint]
  | multiPoint => [.equals, .notEquals]
  | polygon =>
    [.equals, .notEquals, .intersects, .doesNotIntersect, .contains, .overlaps, .touches, .within,
      .intersection]

end GeometryKind

/-- The comparisons that numbers have a builder for. -/
def ScalarOp.comparisons : List ScalarOp :=
  [equals, notEquals, lessThan, lessThanOrEqual, greaterThan, greaterThanOrEqual]

/-- The expressions of each kind that the typed builders make. -/
inductive Built [Numeral α] : ValueKind → Expr α → Prop
  | literal (value : Literal α) : Built value.kind (.literal value)
  | column (c : Column) : Built c.kind (.column c)
  | absent (kind : ValueKind) : Built kind (.absent kind)
  | deepCopy {kind : ValueKind} {e : Expr α} (h : Built kind e) : Built kind e.deepCopy
  | isNull {kind : ValueKind} {e : Expr α} (h : Built kind e) : Built .boolean e.isNull
  | isNotNull {kind : ValueKind} {e : Expr α} (h : Built kind e) : Built .boolean e.isNotNull
  | count {kind : ValueKind} {e : Expr α} (h : Built kind e) : Built .number e.count
  | and {a b : Expr α} (ha : Built .boolean a) (hb : Built .boolean b) : Built .boolean (a.and b)
  | or {a b : Expr α} (ha : Built .boolean a) (hb : Built .boolean b) : Built .boolean (a.or b)
  | all {conditions : List (Expr α)} (h : ∀ c ∈ conditions, Built .boolean c) :
      Built .boolean (Expr.all conditions)
  | any {conditions : List (Expr α)} (h : ∀ c ∈ conditions, Built .boolean c) :
      Built .boolean (Expr.any conditions)
  | not {a : Expr α} (ha : Built .boolean a) : Built .boolean a.not
  | sameTruth {a b : Expr α} (ha : Built .boolean a) (hb : Built .boolean b) :
      Built .boolean (a.isEqual b)
  | plus {a b : Expr α} (ha : Built .number a) (hb : Built .number b) : Built .number (a.plus b)
  | minus {a b : Expr α} (ha : Built .number a) (hb : Built .number b) : Built .number (a.minus b)
  | times {a b : Expr α} (ha : Built .number a) (hb : Built .number b) : Built .number (a.times b)
  | dividedBy {a b : Expr α} (ha : Built .number a) (hb : Built .number b) :
      Built .number (a.dividedBy b)
  | squared {a : Expr α} (ha : Built .number a) : Built .number a.squared
  | negate {a : Expr α} (ha : Built .number a) : Built .number a.negate
  | sqrt {a : Expr α} (ha : Built .number a) : Built .number a.sqrt
  | least {a b : Expr α} (ha : Built .number a) (hb : Built .number b) : Built .number (a.least b)
  | greatest {a b : Expr α} (ha : Built .number a) (hb : Built .number b) :
      Built .number (a.greatest b)
  | compare {op : ScalarOp} {a b : Expr α} (hop : op ∈ ScalarOp.comparisons)
      (ha : Built .number a) (hb : Built .number b) : Built .boolean (Expr.compare op a b)
  | toText {a : Expr α} (ha : Built .number a) : Built .text a.toText
  | minimum {a : Expr α} (ha : Built .number a) : Built .number a.minimum
  | maximum {a : Expr α} (ha : Built .number a) : Built .number a.maximum
  | caseNumber {condition a b : Expr α} (hc : Built .boolean condition) (ha : Built .number a)
      (hb : Built .number b) : Built .number (caseWhen condition a b)
  | concatAll {parts : List (Expr α)} (h : ∀ p ∈ parts, Built .text p) :
      Built .text (Expr.concatAll parts)
  | concat {a b : Expr α} (ha : Built .text a) (hb : Built .text b) : Built .text (a.concat b)
  | substringBefore {a : Expr α} (delimiter : String) (ha : Built .text a) :
      Built .text (a.substringBefore delimiter)
  | substringAfter {a : Expr α} (delimiter : String) (ha : Built .text a) :
      Built .text (a.substringAfter delimiter)
  | trim {a : Expr α} (ha : Built .text a) : Built .text a.trim
  | replace {a : Expr α} (pattern replacement : String) (ha : Built .text a) :
      Built .text (a.replace pattern replacement)
  | length {a : Expr α} (ha : Built .text a) : Built .number a.length
  | countOf {a : Expr α} (needle : String) (ha : Built .text a) : Built .number (a.countOf needle)
  | toNumber {a : Expr α} (ha : Built .text a) : Built .number a.toNumber
  | ordinate {a : Expr α} (index : UInt32) (ha : Built .text a) : Built .number (a.ordinate index)
  | sameText {a b : Expr α} (ha : Built .text a) (hb : Built .text b) : Built .boolean (a.isEqual b)
  | otherText {a b : Expr α} (ha : Built .text a) (hb : Built .text b) :
      Built .boolean (a.isNotEqual b)
  | caseText {condition a b : Expr α} (hc : Built .boolean condition) (ha : Built .text a)
      (hb : Built .text b) : Built .text (caseWhen condition a b)
  | measure {kind : GeometryKind} {op : SpatialOp} {g : Expr α}
      (hop : op ∈ SpatialOp.shared ++ kind.own) (hg : Built (.geometry kind) g) :
      Built (op.resultKind kind) (spatial₁ kind op g)
  | relate {kind : GeometryKind} {op : SpatialOp} {a b : Expr α} (hop : op ∈ kind.paired)
      (ha : Built (.geometry kind) a) (hb : Built (.geometry kind) b) :
      Built (op.resultKind kind) (spatial₂ kind op a b)
  | boundingBox {kind : GeometryKind} {g : Expr α} (hg : Built (.geometry kind) g) :
      Built (.geometry .polygon) (Expr.boundingBox kind g)
  | pointAtCoordinates {x y : Expr α} (hx : Built .number x) (hy : Built .number y) :
      Built (.geometry .point) (Expr.pointAtCoordinates x y)
  | lineThrough {members : List (Expr α)} (h : ∀ m ∈ members, Built (.geometry .point) m) :
      Built (.geometry .line) (Expr.lineThrough members)
  | lineOf (l : Line α) : Built (.geometry .line) (Expr.lineOf l)
  | segmentBetween {a b : Expr α} (ha : Built (.geometry .point) a)
      (hb : Built (.geometry .point) b) : Built (.geometry .segment) (Expr.segmentBetween a b)
  | segmentAtCoordinates {x₁ y₁ x₂ y₂ : Expr α} (hx₁ : Built .number x₁) (hy₁ : Built .number y₁)
      (hx₂ : Built .number x₂) (hy₂ : Built .number y₂) :
      Built (.geometry .segment) (Expr.segmentAtCoordinates x₁ y₁ x₂ y₂)
  | multiPointOf {members : List (Expr α)} (h : ∀ m ∈ members, Built (.geometry .point) m) :
      Built (.geometry .multiPoint) (Expr.multiPointOf members)
  | pointAt {points index : Expr α} (hp : Built (.geometry .multiPoint) points)
      (hi : Built .number index) : Built (.geometry .point) (Expr.pointAt points index)
  | toLine {points : Expr α} (hp : Built (.geometry .multiPoint) points) :
      Built (.geometry .line) (Expr.toLine points)
  | polygonThrough {members : List (Expr α)} (h : ∀ m ∈ members, Built (.geometry .point) m) :
      Built (.geometry .polygon) (Expr.polygonThrough members)
  | containsPoint {a p : Expr α} (ha : Built (.geometry .polygon) a)
      (hp : Built (.geometry .point) p) : Built .boolean (spatial₂ .polygon .containsPoint a p)

namespace Expr

mutual

/-- A copy of an expression is the expression. -/
theorem deepCopy_eq (e : Expr α) : e.deepCopy = e := by
  cases e with
  | literal value => rfl
  | column c => rfl
  | absent kind => rfl
  | node op kind shape operands guarded => rw [deepCopy, deepCopyAll_eq operands]

/-- Copies of expressions are the expressions. -/
theorem deepCopyAll_eq (es : List (Expr α)) : deepCopyAll es = es := by
  cases es with
  | nil => rfl
  | cons e rest => rw [deepCopyAll, deepCopy_eq e, deepCopyAll_eq rest]

end

/-- A disjunction of conditions is a condition. -/
theorem HasKind.or {a b : Expr α} (ha : HasKind .boolean a) (hb : HasKind .boolean b) :
    HasKind .boolean (a.or b) :=
  inherited_hasKind.connective rfl rfl ha hb

/-- A connective over a list keeps the kind if it does for two conditions. -/
theorem hasKind_foldl {f : Expr α → Expr α → Expr α} {conditions : List (Expr α)} {start : Expr α}
    (hf : ∀ a b, HasKind .boolean a → HasKind .boolean b → HasKind .boolean (f a b))
    (hs : HasKind .boolean start) (h : ∀ c ∈ conditions, HasKind .boolean c) :
    HasKind .boolean (conditions.foldl f start) := by
  induction conditions generalizing start with
  | nil => exact hs
  | cons c rest ih =>
    have hc := h c List.mem_cons_self
    exact ih (hf start c hs hc) fun c' h' => h c' (List.mem_cons_of_mem _ h')

/-- A case distinction between values of one kind has that kind. -/
theorem HasKind.caseWhen {kind : ValueKind} {condition a b : Expr α}
    (hk : kind = .number ∨ kind = .text) (hc : HasKind .boolean condition) (ha : HasKind kind a)
    (hb : HasKind kind b) : HasKind kind (Expr.caseWhen condition a b) := by
  unfold Expr.caseWhen
  split
  · exact ha
  · exact hb
  · rw [ha.kind_eq]
    refine hasKind_scalar ?_ (.cons hc (.cons ha (.cons hb .nil)))
    rcases hk with rfl | rfl <;> rfl

/-- A number that is read off a text is a number. -/
theorem HasKind.toNumber [Numeral α] {a : Expr α} (ha : HasKind .text a) :
    HasKind .number a.toNumber := by
  unfold Expr.toNumber
  split
  · exact inherited_hasKind.number _
  · exact inherited_hasKind.unary rfl rfl ha

/-- A box around a geometry is a polygon. -/
theorem HasKind.boundingBox {kind : GeometryKind} {g : Expr α} (hg : HasKind (.geometry kind) g) :
    HasKind (.geometry .polygon) (Expr.boundingBox kind g) := by
  unfold Expr.boundingBox
  split
  · next hb => exact inherited_hasKind.isBox hg hb
  · exact hasKind_spatial₁ .boundingBox rfl rfl hg

/-- Two numbers make a point. -/
theorem HasKind.pointAtCoordinates {x y : Expr α} (hx : HasKind .number x)
    (hy : HasKind .number y) : HasKind (.geometry .point) (Expr.pointAtCoordinates x y) := by
  unfold Expr.pointAtCoordinates
  split
  · exact inherited_hasKind.literal (.point _)
  · refine hasKind_construct rfl ?_
    simp [GeometryKind.memberKind, hx, hy]

/-- The expression of a line is a line. -/
theorem hasKind_lineOf (l : Line α) : HasKind (.geometry .line) (lineOf l) := by
  refine inherited_hasKind.lineThrough fun m hm => ?_
  obtain ⟨p, -, rfl⟩ := List.mem_map.mp hm
  exact inherited_hasKind.literal (.point p)

/-- Two points make a segment. -/
theorem HasKind.segmentBetween {a b : Expr α} (ha : HasKind (.geometry .point) a)
    (hb : HasKind (.geometry .point) b) : HasKind (.geometry .segment) (Expr.segmentBetween a b) := by
  unfold Expr.segmentBetween
  split
  · exact inherited_hasKind.literal (.segment _)
  · refine hasKind_construct rfl ?_
    simp [GeometryKind.memberKind, ha, hb]

/-- Points make a collection, known or not. -/
theorem hasKind_multiPointOf {members : List (Expr α)}
    (h : ∀ m ∈ members, HasKind (.geometry .point) m) :
    HasKind (.geometry .multiPoint) (multiPointOf members) := by
  unfold multiPointOf
  split
  · split
    · exact inherited_hasKind.literal (.multiPoint _)
    · exact hasKind_construct rfl h
  · exact hasKind_construct rfl h

/-- A member of a collection is a point. -/
theorem HasKind.pointAt [Numeral α] {points index : Expr α}
    (hp : HasKind (.geometry .multiPoint) points) (hi : HasKind .number index) :
    HasKind (.geometry .point) (Expr.pointAt points index) := by
  have hnode := hasKind_spatial₂ .pointAtIndex rfl rfl hp hi
  unfold Expr.pointAt
  split
  · split
    · exact hnode
    · exact inherited_hasKind.absent _
  · exact hnode

/-- A collection becomes a line. -/
theorem HasKind.toLine {points : Expr α} (hp : HasKind (.geometry .multiPoint) points) :
    HasKind (.geometry .line) (Expr.toLine points) := by
  unfold Expr.toLine
  split
  · exact hasKind_lineOf _
  · split
    · next members hm => exact inherited_hasKind.lineThrough (inherited_hasKind.members hp hm)
    · exact hasKind_spatial₁ .toLine rfl rfl hp

/-- Points make a polygon, known or not. -/
theorem hasKind_polygonThrough [Coordinate α] {members : List (Expr α)}
    (h : ∀ m ∈ members, HasKind (.geometry .point) m) :
    HasKind (.geometry .polygon) (polygonThrough members) := by
  unfold polygonThrough
  split
  · exact inherited_hasKind.literal (.polygon _)
  · exact hasKind_construct rfl h

end Expr

/-- Operators on one geometry are offered for the kinds that have a builder for them. -/
theorem SpatialOp.offeredFor_of_mem_own {op : SpatialOp} {kind : GeometryKind}
    (h : op ∈ SpatialOp.shared ++ kind.own) : op.offeredFor kind = true ∧ op.arity? = some 1 := by
  revert op
  cases kind <;> decide

/-- Operators on two geometries are offered for the kinds that have a builder for them. -/
theorem SpatialOp.offeredFor_of_mem_paired {op : SpatialOp} {kind : GeometryKind}
    (h : op ∈ kind.paired) :
    op.offeredFor kind = true ∧ op.arity? = some 2 ∧ op.operandKind kind 1 = .geometry kind := by
  revert op
  cases kind <;> decide

/-- Typed builders make well-kinded expressions of the kind they promise. -/
theorem Built.hasKind [Numeral α] {kind : ValueKind} {e : Expr α} (h : Built kind e) :
    HasKind kind e := by
  have hP := inherited_hasKind (α := α)
  induction h with
  | literal value => exact hP.literal value
  | column c => exact ⟨.column c, rfl⟩
  | absent kind => exact hP.absent kind
  | deepCopy _ ih => rwa [deepCopy_eq]
  | isNull _ ih => exact hasKind_scalar rfl (.cons ih .nil)
  | isNotNull _ ih => exact hasKind_scalar rfl (.cons ih .nil)
  | count _ ih => exact hasKind_scalar rfl (.cons ih .nil)
  | and _ _ iha ihb => exact hP.and iha ihb
  | or _ _ iha ihb => exact iha.or ihb
  | all _ ih => exact hasKind_foldl (fun _ _ => hP.and) (hP.bool _) ih
  | any _ ih => exact hasKind_foldl (fun _ _ => HasKind.or) (hP.bool _) ih
  | not _ ih => exact hP.not ih
  | sameTruth _ _ iha ihb => exact hP.compare rfl rfl iha ihb
  | plus _ _ iha ihb => exact hP.plus iha ihb
  | minus _ _ iha ihb => exact hP.minus iha ihb
  | times _ _ iha ihb => exact hP.times iha ihb
  | dividedBy _ _ iha ihb => exact hP.dividedBy iha ihb
  | squared _ ih => exact hP.times ih ih
  | negate _ ih => exact hP.arithmetic₁ rfl rfl ih
  | sqrt _ ih => exact hP.sqrt ih
  | least _ _ iha ihb => exact hP.arithmetic rfl rfl iha ihb
  | greatest _ _ iha ihb => exact hP.arithmetic rfl rfl iha ihb
  | @compare op a b hop _ _ iha ihb =>
    have htakes : op.takes .boolean [.number, .number] = true ∧ op.isAggregate = false := by
      revert op
      decide
    exact hP.compare htakes.1 htakes.2 iha ihb
  | toText _ ih => exact hP.toText ih
  | minimum _ ih => exact hasKind_scalar rfl (.cons ih .nil)
  | maximum _ ih => exact hasKind_scalar rfl (.cons ih .nil)
  | caseNumber _ _ _ ihc iha ihb => exact ihc.caseWhen (.inl rfl) iha ihb
  | concatAll _ ih => exact hP.concatAll ih
  | concat _ _ iha ihb => exact hP.concat iha ihb
  | substringBefore delimiter _ ih => exact hP.substringBefore delimiter ih
  | substringAfter delimiter _ ih => exact hP.substringAfter delimiter ih
  | trim _ ih => exact hP.trim ih
  | replace pattern replacement _ ih => exact hP.replace pattern replacement ih
  | length _ ih => exact hP.length ih
  | countOf needle _ ih => exact hP.countOf needle ih
  | toNumber _ ih => exact ih.toNumber
  | ordinate index _ ih => exact hP.ordinate index ih
  | sameText _ _ iha ihb => exact hP.compare rfl rfl iha ihb
  | otherText _ _ iha ihb => exact hP.compare rfl rfl iha ihb
  | caseText _ _ _ ihc iha ihb => exact ihc.caseWhen (.inr rfl) iha ihb
  | measure hop _ ih =>
    obtain ⟨hk, ha⟩ := SpatialOp.offeredFor_of_mem_own hop
    exact hasKind_spatial₁ _ hk ha ih
  | relate hop _ _ iha ihb =>
    obtain ⟨hk, ha, hs⟩ := SpatialOp.offeredFor_of_mem_paired hop
    exact hasKind_spatial₂ _ hk ha iha (hs ▸ ihb)
  | boundingBox _ ih => exact ih.boundingBox
  | pointAtCoordinates _ _ ihx ihy => exact ihx.pointAtCoordinates ihy
  | lineThrough _ ih => exact hP.lineThrough ih
  | lineOf l => exact hasKind_lineOf l
  | segmentBetween _ _ iha ihb => exact iha.segmentBetween ihb
  | segmentAtCoordinates _ _ _ _ ih₁ ih₂ ih₃ ih₄ =>
    exact (ih₁.pointAtCoordinates ih₂).segmentBetween (ih₃.pointAtCoordinates ih₄)
  | multiPointOf _ ih => exact hasKind_multiPointOf ih
  | pointAt _ _ ihp ihi => exact ihp.pointAt ihi
  | toLine _ ih => exact ih.toLine
  | polygonThrough _ ih => exact hasKind_polygonThrough ih
  | containsPoint _ _ iha ihp => exact hasKind_spatial₂ .containsPoint rfl rfl iha ihp

end SpatialSql
