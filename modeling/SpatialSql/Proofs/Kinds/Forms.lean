import SpatialSql.Proofs.Kinds.Inheritance

/-!
# Portable forms inherit

The formulas that stand in for spatial nodes are gone through once, function by function.
What comes out is `Inherited.emulate?`: a property with the laws of `Inherited` that holds of
a spatial node holds of its portable form, at the kind of the node.
-/

namespace SpatialSql.Emulation

open SpatialSql.Expr

variable {α : Type}

/-- A property holds of a portable form at a kind: of an expression that stands in for the node, or of
the text of a geometry of that kind. -/
def Emulated.Satisfies (P : ValueKind → Expr α → Prop) (kind : ValueKind) : Emulated α → Prop
  | .value e => P kind e
  | .wkt geometry text => kind = .geometry geometry ∧ P .text text

namespace Carried

variable {P : ValueKind → Expr α → Prop} (hP : Carried P) [Numeral α]

include hP

/-- The better of two numbers. -/
theorem extreme (side : Side) {a b : Expr α} (ha : P .number a) (hb : P .number b) :
    P .number (Emulation.extreme side a b) := by
  unfold Emulation.extreme
  split
  · exact hP.arithmetic rfl rfl ha hb
  · exact hP.arithmetic rfl rfl ha hb

/-- The best of several numbers is picked by comparing them in turn. -/
theorem extremeOf? {side : Side} {numbers : List (Expr α)} {e : Expr α}
    (hn : ∀ a ∈ numbers, P .number a) (h : Emulation.extremeOf? side numbers = some e) :
    P .number e := by
  cases numbers with
  | nil => contradiction
  | cons a rest =>
    obtain rfl := Option.some.inj h
    have ha := hn a List.mem_cons_self
    have hrest := fun b hb => hn b (List.mem_cons_of_mem _ hb)
    clear hn h
    induction rest generalizing a with
    | nil => exact ha
    | cons b rest ih =>
      exact ih (Emulation.extreme side a b) (hP.extreme side ha (hrest b List.mem_cons_self))
        fun c hc => hrest c (List.mem_cons_of_mem _ hc)

/-- A bound of a literal is a literal. -/
theorem literalBound? {side : Side} {g e : Expr α}
    (h : Emulation.literalBound? side g = some e) : P .number e := by
  obtain ⟨bounds?, -, rfl⟩ := Option.map_eq_some_iff.mp h
  cases bounds? with
  | none => exact hP.absent _
  | some b => exact hP.number _

/-- A bound that no formula gives is left to the database. -/
theorem boundOf {kind : GeometryKind} (side : Side) {g : Expr α} (hg : P (.geometry kind) g) :
    P .number (Emulation.boundOf kind side g) := by
  unfold Emulation.boundOf
  split
  · exact hP.absent _
  · next hn =>
    split
    · next bound hb => exact hP.literalBound? hb
    · split
      · next hk =>
        subst hk
        exact hP.coordinate side.axis hg
      · exact hP.side side hg (Bool.eq_false_iff.mpr hn)

/-- A bound that is found through a node comes from its members, from what it encloses or from the
ends of a segment. -/
theorem nodeBound? {kind : GeometryKind} {side : Side} {g e : Expr α} (hk : kind ≠ .point)
    (hg : P (.geometry kind) g) (h : Emulation.nodeBound? kind side g = some e) : P .number e := by
  unfold Emulation.nodeBound? at h
  split at h
  · next members _ =>
    refine hP.extremeOf? (fun a ha => ?_) h
    obtain ⟨m, hm, rfl⟩ := List.mem_map.mp ha
    exact hP.coordinate side.axis (GeometryKind.memberKind_of_ne hk ▸ hP.member hg hm)
  · obtain ⟨a, ha, rfl⟩ := Option.map_eq_some_iff.mp h
    rw [List.head?_eq_getElem?] at ha
    exact hP.boundOf side (hP.operand hg ha)
  · obtain ⟨a, ha, rfl⟩ := Option.map_eq_some_iff.mp h
    rw [List.head?_eq_getElem?] at ha
    have hbound := hP.boundOf side (hP.operand hg ha)
    split
    · exact hP.grouped (.inl rfl) hg hbound
    · exact hP.grouped (.inr rfl) hg hbound
  · split at h
    · next hs =>
      subst hs
      have hends := hP.segmentEnds hg
      split at h
      · obtain rfl := Option.some.inj h
        exact hP.extreme side hends.x₁ hends.x₂
      · obtain rfl := Option.some.inj h
        exact hP.extreme side hends.y₁ hends.y₂
    · contradiction

/-- A bound is that of a literal or a point, or it is found through the node. -/
theorem emulateBound? {kind : GeometryKind} {side : Side} {g e : Expr α}
    (hg : P (.geometry kind) g) (h : Emulation.emulateBound? kind side g = some e) :
    P .number e := by
  unfold Emulation.emulateBound? at h
  split at h
  · obtain rfl := Option.some.inj h
    exact hP.boundOf side hg
  · next hcond =>
    refine hP.nodeBound? ?_ hg h
    rintro rfl
    simp at hcond

/-- A bound is resolved as far as formulas reach. -/
theorem resolvedBound {kind : GeometryKind} (side : Side) {g : Expr α}
    (hg : P (.geometry kind) g) : P .number (Emulation.resolvedBound kind side g) := by
  unfold Emulation.resolvedBound
  cases h : Emulation.emulateBound? kind side g with
  | none => exact hP.boundOf side hg
  | some e => exact hP.emulateBound? hg h

/-- The coordinate of a point is known or read off its text. -/
theorem emulateCoordinate (axis : Axis) {p : Expr α} (hp : P (.geometry .point) p) :
    P .number (Emulation.emulateCoordinate axis p) := by
  unfold Emulation.emulateCoordinate
  cases h : Emulation.knownCoordinate? axis p with
  | none => exact hP.ordinate _ (hP.textOf hp)
  | some e => exact hP.knownCoordinate? hp h

/-- The distance of two points is made of the differences of their coordinates. -/
theorem emulateDistance {p q : Expr α} (hp : P (.geometry .point) p) (hq : P (.geometry .point) q) :
    P .number (Emulation.emulateDistance p q) := by
  have hdx := hP.minus (hP.coordinate .x hq) (hP.coordinate .x hp)
  have hdy := hP.minus (hP.coordinate .y hq) (hP.coordinate .y hp)
  exact hP.sqrt (hP.plus (hP.times hdx hdx) (hP.times hdy hdy))

/-- The number of points is known or counted by the commas of the text. -/
theorem emulateNumberOfPoints {points : Expr α} (h : P (.geometry .multiPoint) points) :
    P .number (Emulation.emulateNumberOfPoints points) := by
  unfold Emulation.emulateNumberOfPoints
  split
  · exact hP.number _
  · exact hP.number _
  · exact hP.plus (hP.countOf _ (hP.textOf h)) (hP.number _)

omit [Numeral α] in
/-- Members are skipped by cutting the text behind their commas. -/
theorem skipMembers (n : Nat) {rest : Expr α} (h : P .text rest) :
    P .text (Emulation.skipMembers n rest) := by
  induction n generalizing rest with
  | zero => exact h
  | succ n ih => exact ih (hP.substringAfter _ h)

/-- A member is cut out of the text and tested against the number of members. -/
theorem memberText {points : Expr α} (index : α) (position : Nat)
    (h : P (.geometry .multiPoint) points) :
    P .text (Emulation.memberText points index position) := by
  have hrest := hP.skipMembers position (hP.substringAfter "((" (hP.textOf h))
  have hmember := hP.trim (hP.replace "(" "" (hP.substringBefore ")" hrest))
  refine hP.caseWhen (hP.compare rfl rfl (hP.number _) (hP.emulateNumberOfPoints h))
    (hP.concatAll ?_) (hP.absent _)
  simp [hmember, hP.text]

/-- A member is a literal, an operand or a cut of the text; without a natural index there is
none. -/
theorem emulatePointAt {points : Expr α} (index : α) (h : P (.geometry .multiPoint) points) :
    (Emulation.emulatePointAt points index).Satisfies P (.geometry .point) := by
  unfold Emulation.emulatePointAt
  split
  · exact hP.absent _
  · next position _ =>
    split
    · split
      · exact hP.literal (.point _)
      · exact hP.absent _
    · next members _ hm =>
      change P _ (members[position]?.getD _)
      cases he : members[position]? with
      | none => exact hP.absent _
      | some m => exact hP.members h hm m (List.mem_of_getElem? he)
    · exact ⟨rfl, hP.memberText index position h⟩

/-- The line through a collection, given the nodes its formulas make over the collection itself. -/
theorem emulateToLine {points : Expr α} (h : P (.geometry .multiPoint) points)
    (hs : P .number (spatial₁ .multiPoint .numberOfPoints points))
    (hl : ∀ members, points.spatialOperands? .construct = some members →
      P (.geometry .line) (Expr.lineThrough members)) :
    (Emulation.emulateToLine points).Satisfies P (.geometry .line) := by
  unfold Emulation.emulateToLine
  split
  · split
    · exact hP.literal (.line _)
    · exact hP.absent _
  · next members _ hm => exact hl members hm
  · have hcoordinates := hP.trim (hP.replace ")" "" (hP.replace "(" ""
      (hP.replace "MULTIPOINT" "" (hP.textOf h))))
    refine ⟨rfl, hP.caseWhen (hP.compare rfl rfl hs (hP.number _)) (hP.concatAll ?_)
      (hP.absent _)⟩
    simp [hcoordinates, hP.text]

/-- The cross product that orients three points. -/
theorem orientation {ax ay bx bY cx cy : Expr α} (hax : P .number ax) (hay : P .number ay)
    (hbx : P .number bx) (hby : P .number bY) (hcx : P .number cx) (hcy : P .number cy) :
    P .number (Emulation.orientation ax ay bx bY cx cy) :=
  hP.minus (hP.times (hP.minus hbx hax) (hP.minus hcy hay))
    (hP.times (hP.minus hby hay) (hP.minus hcx hax))

/-- The comparison of two ranges along an axis. -/
theorem rangesOverlap {a₁ a₂ b₁ b₂ : Expr α} (ha₁ : P .number a₁) (ha₂ : P .number a₂)
    (hb₁ : P .number b₁) (hb₂ : P .number b₂) :
    P .boolean (Emulation.rangesOverlap a₁ a₂ b₁ b₂) := by
  have hleast {a b : Expr α} (ha : P .number a) (hb : P .number b) : P .number (a.least b) :=
    hP.arithmetic rfl rfl ha hb
  have hgreatest {a b : Expr α} (ha : P .number a) (hb : P .number b) : P .number (a.greatest b) :=
    hP.arithmetic rfl rfl ha hb
  exact hP.and (hP.compare rfl rfl (hleast ha₁ ha₂) (hgreatest hb₁ hb₂))
    (hP.compare rfl rfl (hleast hb₁ hb₂) (hgreatest ha₁ ha₂))

/-- The product of two orientations, compared to zero. -/
theorem straddles {a b : Expr α} (ha : P .number a) (hb : P .number b) :
    P .boolean (Emulation.straddles a b) :=
  hP.compare rfl rfl (hP.times ha hb) (hP.number _)

/-- The test of two segments, by orientations and ranges. -/
theorem segmentsIntersect {p q : Ends α} (hp : p.All P) (hq : q.All P) :
    P .boolean (Emulation.segmentsIntersect p q) := by
  have hd₁ := hP.orientation hq.x₁ hq.y₁ hq.x₂ hq.y₂ hp.x₁ hp.y₁
  have hd₂ := hP.orientation hq.x₁ hq.y₁ hq.x₂ hq.y₂ hp.x₂ hp.y₂
  have hd₃ := hP.orientation hp.x₁ hp.y₁ hp.x₂ hp.y₂ hq.x₁ hq.y₁
  have hd₄ := hP.orientation hp.x₁ hp.y₁ hp.x₂ hp.y₂ hq.x₂ hq.y₂
  exact hP.and (hP.and (hP.and (hP.straddles hd₁ hd₂) (hP.straddles hd₃ hd₄))
    (hP.rangesOverlap hp.x₁ hp.x₂ hq.x₁ hq.x₂)) (hP.rangesOverlap hp.y₁ hp.y₂ hq.y₁ hq.y₂)

/-- The text of the point where two segments cross. -/
theorem crossingText {p q : Ends α} (hp : p.All P) (hq : q.All P) :
    P .text (Emulation.crossingText p q) := by
  have hrx := hP.minus hp.x₂ hp.x₁
  have hry := hP.minus hp.y₂ hp.y₁
  have hsx := hP.minus hq.x₂ hq.x₁
  have hsy := hP.minus hq.y₂ hq.y₁
  have hcross := hP.minus (hP.times hrx hsy) (hP.times hry hsx)
  have hdx := hP.minus hq.x₁ hp.x₁
  have hdy := hP.minus hq.y₁ hp.y₁
  have hu := hP.dividedBy (hP.minus (hP.times hdx hsy) (hP.times hdy hsx)) hcross
  have hcrossing := hP.pointText (hP.plus hp.x₁ (hP.times hu hrx)) (hP.plus hp.y₁ (hP.times hu hry))
  exact hP.caseWhen
    (hP.and (hP.segmentsIntersect hp hq) (hP.compare rfl rfl hcross (hP.number _))) hcrossing
    (hP.absent _)

/-- What is computed for two literal lines. -/
theorem onLines? {op : SpatialOp} {a b : Line α} {e : Expr α}
    (h : Emulation.onLines? op a b = some e) : P (op.resultKind .line) e := by
  unfold Emulation.onLines? at h
  split at h
  · obtain rfl := Option.some.inj h
    exact hP.bool _
  · split at h
    · obtain rfl := Option.some.inj h
      exact hP.literal (.point _)
    · obtain rfl := Option.some.inj h
      exact hP.absent _
  · obtain rfl := Option.some.inj h
    exact hP.literal (.multiPoint _)
  · contradiction

/-- What is computed for two literal segments. -/
theorem onSegments? {op : SpatialOp} {s t : Segment α} {e : Expr α}
    (h : Emulation.onSegments? op s t = some e) : P (op.resultKind .segment) e := by
  unfold Emulation.onSegments? at h
  split at h
  · obtain rfl := Option.some.inj h
    exact hP.bool _
  · split at h
    · obtain rfl := Option.some.inj h
      exact hP.literal (.point _)
    · obtain rfl := Option.some.inj h
      exact hP.absent _
  · contradiction

/-- Lines have forms only where both are literals. -/
theorem emulateLine? {op : SpatialOp} {a b : Expr α} {form : Emulated α}
    (h : Emulation.emulateLine? op a b = some form) : form.Satisfies P (op.resultKind .line) := by
  unfold Emulation.emulateLine? at h
  split at h
  · obtain ⟨e, he, rfl⟩ := Option.map_eq_some_iff.mp h
    exact hP.onLines? he
  · contradiction

/-- Segments have forms for literals, and for other operands through their ends. -/
theorem emulateSegment? {op : SpatialOp} {kind valueKind : ValueKind} {shape : Shape}
    {a b : Expr α} {guarded : Bool} {form : Emulated α}
    (hn : P kind (.node (.spatial .segment op) valueKind shape [a, b] guarded))
    (h : Emulation.emulateSegment? op a b = some form) :
    form.Satisfies P (op.resultKind .segment) := by
  unfold Emulation.emulateSegment? at h
  split at h
  · obtain ⟨e, he, rfl⟩ := Option.map_eq_some_iff.mp h
    exact hP.onSegments? he
  · split at h
    · obtain rfl := Option.some.inj h
      exact hP.segmentsIntersect (hP.segmentEnds (hP.operand (i := 0) hn rfl))
        (hP.segmentEnds (hP.operand (i := 1) hn rfl))
    · obtain rfl := Option.some.inj h
      exact ⟨rfl, hP.crossingText (hP.segmentEnds (hP.operand (i := 0) hn rfl))
        (hP.segmentEnds (hP.operand (i := 1) hn rfl))⟩
    · contradiction

omit [Numeral α] in
/-- A test of two literal polygons is a literal. -/
theorem onPolygons? {test : Polygon α → Polygon α → Bool} {a b : Expr α} {form : Emulated α}
    (h : Emulation.onPolygons? test a b = some form) : form.Satisfies P .boolean := by
  unfold Emulation.onPolygons? at h
  split at h
  · obtain rfl := Option.some.inj h
    exact hP.bool _
  · contradiction

/-- The intersection of two literal polygons is a literal or absent. -/
theorem emulateIntersection? {a b : Expr α} {form : Emulated α}
    (h : Emulation.emulateIntersection? a b = some form) :
    form.Satisfies P (.geometry .polygon) := by
  unfold Emulation.emulateIntersection? at h
  split at h
  · obtain ⟨region, -, rfl⟩ := Option.map_eq_some_iff.mp h
    cases region with
    | none => exact hP.absent _
    | some p => exact hP.literal (.polygon p)
  · contradiction

/-- The ring of a polygon is a literal, or its text with other words around it. -/
theorem emulateExteriorRing {p : Expr α} (hp : P (.geometry .polygon) p) :
    (Emulation.emulateExteriorRing p).Satisfies P (.geometry .line) := by
  unfold Emulation.emulateExteriorRing
  split
  · exact hP.literal (.line _)
  · exact ⟨rfl, hP.replace _ _ (hP.replace _ _ (hP.replace _ _ (hP.textOf hp)))⟩

/-- The forms for operators on points. -/
theorem emulatePoint? {op : SpatialOp} {kind valueKind : ValueKind} {shape : Shape}
    {operands : List (Expr α)} {guarded : Bool} {form : Emulated α}
    (hn : P kind (.node (.spatial .point op) valueKind shape operands guarded))
    (h : Emulation.emulatePoint? op operands = some form) :
    form.Satisfies P (op.resultKind .point) := by
  unfold Emulation.emulatePoint? at h
  split at h
  · obtain rfl := Option.some.inj h
    exact hP.emulateCoordinate .x (hP.operand (i := 0) hn rfl)
  · obtain rfl := Option.some.inj h
    exact hP.emulateCoordinate .y (hP.operand (i := 0) hn rfl)
  · obtain rfl := Option.some.inj h
    exact hP.emulateDistance (hP.operand (i := 0) hn rfl) (hP.operand (i := 1) hn rfl)
  · contradiction

/-- The forms for operators on collections, given one for the conversion to a line. -/
theorem emulateMultiPoint? {op : SpatialOp} {kind valueKind : ValueKind} {shape : Shape}
    {operands : List (Expr α)} {guarded : Bool} {form : Emulated α}
    (hn : P kind (.node (.spatial .multiPoint op) valueKind shape operands guarded))
    (hl : ∀ points, op = .toLine → operands = [points] →
      (Emulation.emulateToLine points).Satisfies P (.geometry .line))
    (h : Emulation.emulateMultiPoint? op operands = some form) :
    form.Satisfies P (op.resultKind .multiPoint) := by
  have hpoints {points : Expr α} (hp : operands[0]? = some points) := hP.operand hn hp
  unfold Emulation.emulateMultiPoint? at h
  split at h
  · obtain rfl := Option.some.inj h
    exact hP.emulateNumberOfPoints (hpoints rfl)
  · obtain ⟨index, -, rfl⟩ := Option.map_eq_some_iff.mp h
    exact hP.emulatePointAt index (hpoints rfl)
  · obtain rfl := Option.some.inj h
    exact hl _ rfl rfl
  · contradiction

/-- The forms for operators on polygons. -/
theorem emulatePolygon? {op : SpatialOp} {kind valueKind : ValueKind} {shape : Shape}
    {operands : List (Expr α)} {guarded : Bool} {form : Emulated α}
    (hn : P kind (.node (.spatial .polygon op) valueKind shape operands guarded))
    (h : Emulation.emulatePolygon? op operands = some form) :
    form.Satisfies P (op.resultKind .polygon) := by
  unfold Emulation.emulatePolygon? at h
  split at h
  · split at h
    · obtain rfl := Option.some.inj h
      exact hP.bool _
    · contradiction
  · exact hP.onPolygons? h
  · exact hP.onPolygons? h
  · exact hP.onPolygons? h
  · exact hP.emulateIntersection? h
  · obtain ⟨p, -, rfl⟩ := Option.map_eq_some_iff.mp h
    exact hP.number _
  · obtain rfl := Option.some.inj h
    exact hP.emulateExteriorRing (hP.operand (i := 0) hn rfl)
  · contradiction

/-- Two geometries are compared by their coordinates or by their texts. -/
theorem emulateEquals {kind : GeometryKind} {a b : Expr α} (ha : P (.geometry kind) a)
    (hb : P (.geometry kind) b) : P .boolean (Emulation.emulateEquals kind a b) := by
  unfold Emulation.emulateEquals
  split
  · next hk =>
    subst hk
    exact hP.pointsEqual ha hb
  · exact hP.compare rfl rfl (hP.textOf ha) (hP.textOf hb)

omit [Numeral α] in
/-- A box is a polygon, whatever it is the box of. -/
theorem isBox {kind : ValueKind} {g : Expr α} (hg : P kind g) (hb : g.isBox = true) :
    P (.geometry .polygon) g := by
  cases g with
  | node op valueKind shape operands guarded =>
    cases op with
    | scalar op => contradiction
    | spatial geometry op =>
      have hresult : op.resultKind geometry = .geometry .polygon := by
        simp only [Expr.isBox, spatialOperands?] at hb
        split at hb
        · next hop => rw [hop]; rfl
        · split at hb
          · next hop => rw [hop]; rfl
          · contradiction
      exact hresult ▸ hP.result hg
  | literal value => contradiction
  | column c => contradiction
  | absent k => contradiction

/-- A box is a literal, the geometry itself or the text of a rectangle. -/
theorem emulateBoundingBox {kind : GeometryKind} {g : Expr α} (hg : P (.geometry kind) g) :
    (Emulation.emulateBoundingBox kind g).Satisfies P (.geometry .polygon) := by
  unfold Emulation.emulateBoundingBox
  split
  · next hb => exact hP.isBox hg hb
  · split
    · exact hP.literal (.polygon _)
    · exact hP.absent _
    · exact ⟨rfl, hP.rectangleText (hP.resolvedBound _ hg) (hP.resolvedBound _ hg)
        (hP.resolvedBound _ hg) (hP.resolvedBound _ hg)⟩

/-- The extent of a group is a rectangle whose sides are aggregates. -/
theorem emulateExtent {kind : GeometryKind} {resultKind valueKind : ValueKind} {g : Expr α} {shape : Shape}
    {guarded : Bool}
    (hn : P resultKind (.node (.spatial kind .extent) valueKind shape [g] guarded)) :
    (Emulation.emulateExtent kind g).Satisfies P (.geometry .polygon) := by
  have hg : P (.geometry kind) g := hP.operand (i := 0) hn rfl
  have hmin (side : Side) : P .number (Emulation.resolvedBound kind side g).minimum :=
    hP.grouped (.inl rfl) hn (hP.resolvedBound side hg)
  have hmax (side : Side) : P .number (Emulation.resolvedBound kind side g).maximum :=
    hP.grouped (.inr rfl) hn (hP.resolvedBound side hg)
  exact ⟨rfl, hP.rectangleText (hmin _) (hmin _) (hmax _) (hmax _)⟩

/-- The text of a stored geometry may be the geometry itself. -/
theorem emulateAsText {kind : GeometryKind} {g : Expr α} (hg : P (.geometry kind) g) :
    P .text (Emulation.emulateAsText kind g) ∨ Emulation.emulateAsText kind g = g := by
  unfold Emulation.emulateAsText
  cases h : Emulation.knownText? kind g with
  | none => exact .inr rfl
  | some e => exact .inl (hP.knownText? hg h)

/-- The forms that depend on the kind of geometry. -/
theorem emulateKind? {kind : GeometryKind} {op : SpatialOp} {resultKind valueKind : ValueKind}
    {shape : Shape} {operands : List (Expr α)} {guarded : Bool} {form : Emulated α}
    (hn : P resultKind (.node (.spatial kind op) valueKind shape operands guarded))
    (hl : ∀ points, kind = .multiPoint → op = .toLine → operands = [points] →
      (Emulation.emulateToLine points).Satisfies P (.geometry .line))
    (h : Emulation.emulateKind? kind op operands = some form) :
    form.Satisfies P (op.resultKind kind) := by
  unfold Emulation.emulateKind? at h
  split at h
  · exact hP.emulatePoint? hn h
  · exact hP.emulateLine? h
  · exact hP.emulateSegment? hn h
  · exact hP.emulateMultiPoint? hn (fun points => hl points rfl) h
  · exact hP.emulatePolygon? hn h
  · contradiction

/-- The form of an operator that needs no other formula, given the line through a collection. -/
theorem basic? {kind : GeometryKind} {op : SpatialOp} {resultKind valueKind : ValueKind}
    {shape : Shape} {operands : List (Expr α)} {guarded : Bool} {form : Emulated α}
    (hn : P resultKind (.node (.spatial kind op) valueKind shape operands guarded))
    (hl : ∀ points, kind = .multiPoint → op = .toLine → operands = [points] →
      (Emulation.emulateToLine points).Satisfies P (.geometry .line))
    (h : Emulation.basic? kind op operands = some form) :
    form.Satisfies P (op.resultKind kind) ∨ op = .asText ∧ ∃ g ∈ operands, form = .value g := by
  have hfirst {g : Expr α} (hg : operands[0]? = some g) := hP.operand hn hg
  have hsecond {g : Expr α} (hg : operands[1]? = some g) := hP.operand hn hg
  have hbound {side : Side} {g : Expr α} (hg : P (.geometry kind) g)
      (hb : (Emulation.emulateBound? kind side g).map .value = some form) :
      form.Satisfies P .number := by
    obtain ⟨e, he, rfl⟩ := Option.map_eq_some_iff.mp hb
    exact hP.emulateBound? hg he
  unfold Emulation.basic? at h
  split at h
  · obtain rfl := Option.some.inj h
    exact .inl ⟨rfl, hP.constructText fun m hm => hP.member (hP.result hn) hm⟩
  · next g =>
    obtain rfl := Option.some.inj h
    rcases hP.emulateAsText (hfirst rfl) with ht | ht
    · exact .inl ht
    · exact .inr ⟨rfl, g, List.mem_singleton_self g, congrArg Emulated.value ht⟩
  · obtain rfl := Option.some.inj h
    exact .inl (hP.emulateEquals (hfirst rfl) (hsecond rfl))
  · exact .inl (hbound (hfirst rfl) h)
  · exact .inl (hbound (hfirst rfl) h)
  · exact .inl (hbound (hfirst rfl) h)
  · exact .inl (hbound (hfirst rfl) h)
  · obtain rfl := Option.some.inj h
    exact .inl (hP.emulateBoundingBox (hfirst rfl))
  · obtain rfl := Option.some.inj h
    exact .inl (hP.number _)
  · obtain rfl := Option.some.inj h
    exact .inl (hP.number _)
  · obtain rfl := Option.some.inj h
    exact .inl (hP.bool _)
  · obtain rfl := Option.some.inj h
    exact .inl (hP.absent _)
  · obtain rfl := Option.some.inj h
    exact .inl (hP.emulateExtent hn)
  · exact .inl (hP.emulateKind? hn hl h)

/-- A folded test is the test or a literal truth value. -/
theorem folded {kind : GeometryKind} {op : SpatialOp} {a b : Expr α}
    (hk : op.resultKind kind = .boolean) (hn : P .boolean (spatial₂ kind op a b)) :
    P .boolean (Emulation.folded kind op a b) := by
  simp only [Emulation.folded]
  split
  · exact hn
  · split
    · next value hv =>
      rcases hP.basic? hn (by rintro points - rfl; contradiction) hv with hs | ⟨rfl, -⟩
      · exact hk ▸ hs
      · contradiction
    · exact hn

end Carried

namespace Inherited

variable {P : ValueKind → Expr α → Prop} (hP : Inherited P) [Numeral α]

include hP

omit [Numeral α] in
/-- A line through given points is a literal or a construction. -/
theorem lineThrough {members : List (Expr α)} (h : ∀ m ∈ members, P (.geometry .point) m) :
    P (.geometry .line) (Expr.lineThrough members) := by
  unfold Expr.lineThrough
  split
  · split
    · exact hP.literal (.line _)
    · exact hP.line h
  · exact hP.line h

/-- A collection is converted by its members or by its text. -/
theorem emulateToLine {points : Expr α} (h : P (.geometry .multiPoint) points) :
    (Emulation.emulateToLine points).Satisfies P (.geometry .line) :=
  hP.toCarried.emulateToLine h (hP.size h) fun _ hm => hP.lineThrough (hP.members h hm)

/-- Overlapping is meeting without containing either way. -/
theorem emulateOverlaps {a b : Expr α} (ha : P (.geometry .polygon) a)
    (hb : P (.geometry .polygon) b) : P .boolean (Emulation.emulateOverlaps a b) := by
  unfold Emulation.emulateOverlaps
  split
  · exact hP.bool _
  · have hshared := hP.region ha hb
    have hmeet : P .boolean (Emulation.folded .polygon .intersects a b) :=
      hP.folded rfl (hP.polygons (.inl rfl) ha hb)
    exact hP.and (hP.and hmeet (hP.equality (.inr rfl) hshared ha))
      (hP.equality (.inr rfl) hshared hb)

/-- Being within is being contained. -/
theorem emulateWithin {a b : Expr α} (ha : P (.geometry .polygon) a)
    (hb : P (.geometry .polygon) b) : P .boolean (Emulation.emulateWithin a b) := by
  unfold Emulation.emulateWithin
  split
  · exact hP.absent _
  · exact hP.folded rfl (hP.polygons (.inr rfl) hb ha)

/-- An inherited property passes from a spatial node to its portable form, at the kind the operator
gives; only a text may be the geometry it is the text of. -/
theorem emulate? {kind : GeometryKind} {op : SpatialOp} {resultKind valueKind : ValueKind}
    {shape : Shape} {operands : List (Expr α)} {guarded : Bool} {form : Emulated α}
    (hn : P resultKind (.node (.spatial kind op) valueKind shape operands guarded))
    (h : Emulation.emulate? kind op operands = some form) :
    form.Satisfies P (op.resultKind kind) ∨ op = .asText ∧ ∃ g ∈ operands, form = .value g := by
  have hfirst {g : Expr α} (hg : operands[0]? = some g) := hP.operand hn hg
  have hsecond {g : Expr α} (hg : operands[1]? = some g) := hP.operand hn hg
  unfold Emulation.emulate? at h
  split at h
  · obtain rfl := Option.some.inj h
    exact .inl (hP.not (hP.folded rfl (hP.equality (.inl rfl) (hfirst rfl) (hsecond rfl))))
  · obtain rfl := Option.some.inj h
    exact .inl (hP.not (hP.folded rfl (hP.meeting hn)))
  · obtain rfl := Option.some.inj h
    exact .inl (hP.emulateOverlaps (hfirst rfl) (hsecond rfl))
  · obtain rfl := Option.some.inj h
    exact .inl (hP.emulateWithin (hfirst rfl) (hsecond rfl))
  · refine hP.basic? hn ?_ h
    rintro points rfl rfl rfl
    exact hP.emulateToLine (hfirst rfl)

end Inherited

end SpatialSql.Emulation
