import SpatialSql.Proofs.Geometry.Ordinates
import SpatialSql.Proofs.Meaning.Constructions
import SpatialSql.Proofs.Meaning.StoredText
import Mathlib.Order.Bounds.Basic

/-!
# The portable formulas for the sides of a box

A side of the box around a geometry is found along several paths: the better of the coordinates
of the members of a construction, the better of two numbers read from the text of a segment, or
the side of what a box encloses, whose kind may be another. In a row that gives points to the
leaves, each path comes to the side of the box around these points. The numbers met on the way
are compared in the order of the points, so up to the point that closes a ring they are even the
same computation; that point is compared a second time, which an exact order does not notice.
-/

namespace SpatialSql

/-- Picking the smaller or the larger of two numbers goes by a linear order. -/
structure ExactlyOrdered (α : Type) [Coordinate α] [LinearOrder α] : Prop where
  least : ∀ x y : α, Coordinate.least x y = min x y
  greatest : ∀ x y : α, Coordinate.greatest x y = max x y

/-- The coordinates of points along an axis. -/
def Axis.values {α : Type} (axis : Axis) (points : List (Point α)) : Set α :=
  {x | x ∈ points.map axis.of}

/-- The points a geometry of a kind goes through, if it is made of the given ones: the ring of a polygon
is closed. -/
def GeometryKind.outline {α : Type} [Coordinate α] (kind : GeometryKind) (points : List (Point α)) :
    List (Point α) :=
  if kind = .polygon then Polygon.closeRing points else points

namespace Side

variable {α : Type}

/-- The box around a point has its coordinates as sides. -/
theorem of_point (side : Side) (p : Point α) : side.of (Bounds.point p) = side.axis.of p := by
  obtain ⟨_ | _, _ | _⟩ := side <;> rfl

section Order

variable [LinearOrder α] {side : Side} {values : Set α} {x y : α}

/-- The number is among the values and none of them is better. -/
def IsBound (side : Side) (values : Set α) (x : α) : Prop :=
  if side.isMin then IsLeast values x else IsGreatest values x

/-- A single number is its own bound. -/
theorem isBound_singleton (x : α) : side.IsBound {x} x := by
  unfold IsBound
  split
  · exact isLeast_singleton
  · exact isGreatest_singleton

/-- There is at most one bound. -/
theorem IsBound.unique (hx : side.IsBound values x) (hy : side.IsBound values y) : x = y := by
  unfold IsBound at hx hy
  split at hx
  · next hmin =>
    rw [if_pos hmin] at hy
    exact IsLeast.unique hx hy
  · next hmax =>
    rw [if_neg hmax] at hy
    exact IsGreatest.unique hx hy

end Order

variable [Coordinate α] (side : Side)

/-- The better of two numbers for a side. -/
def better (x y : α) : α := if side.isMin then Coordinate.least x y else Coordinate.greatest x y

/-- One more point: each side is compared with the coordinate along its own axis. -/
theorem of_extend (b : Bounds α) (p : Point α) :
    side.of (b.extend p) = side.better (side.of b) (side.axis.of p) := by
  obtain ⟨_ | _, _ | _⟩ := side <;> rfl

/-- A side of a growing box is the best coordinate so far. -/
theorem of_foldl_extend (b : Bounds α) (points : List (Point α)) :
    side.of (points.foldl Bounds.extend b) =
      (points.map side.axis.of).foldl side.better (side.of b) := by
  induction points generalizing b with
  | nil => rfl
  | cons p points ih => rw [List.foldl_cons, ih, of_extend, List.map_cons, List.foldl_cons]

/-- A side of the box around points is the best of their coordinates, taken in order. -/
theorem of_foldl_extend_point (p : Point α) (points : List (Point α)) :
    side.of (points.foldl Bounds.extend (Bounds.point p)) =
      (points.map side.axis.of).foldl side.better (side.axis.of p) := by
  rw [of_foldl_extend, of_point]

section Exact

variable [LinearOrder α] {side} {values : Set α} {x : α}

/-- One more value. -/
theorem IsBound.insert (hα : ExactlyOrdered α) (hx : side.IsBound values x) (y : α) :
    side.IsBound (insert y values) (side.better x y) := by
  unfold IsBound better at *
  split at hx
  · next hmin =>
    rw [if_pos hmin, if_pos hmin, hα.least, min_comm]
    exact IsLeast.insert y hx
  · next hmax =>
    rw [if_neg hmax, if_neg hmax, hα.greatest, max_comm]
    exact IsGreatest.insert y hx

/-- The best of many values, taken one after the other. -/
theorem IsBound.foldl (hα : ExactlyOrdered α) (hx : side.IsBound values x) (rest : List α) :
    side.IsBound ({z | z ∈ rest} ∪ values) (rest.foldl side.better x) := by
  induction rest generalizing values x with
  | nil => simpa using hx
  | cons y rest ih =>
    have hvalues : {z | z ∈ y :: rest} ∪ values = {z | z ∈ rest} ∪ Insert.insert y values := by
      ext z
      simp [or_assoc]
    rw [hvalues]
    exact ih (hx.insert hα y)

/-- The sides of a box are the bounds of the coordinates of the points it is around. -/
theorem isBound_of_bounds (hα : ExactlyOrdered α) {points : List (Point α)} {b : Bounds α}
    (h : Bounds.of? points = some b) (side : Side) :
    side.IsBound (side.axis.values points) (side.of b) := by
  cases points with
  | nil => contradiction
  | cons p points =>
    obtain rfl := Option.some.inj h
    have hvalues : side.axis.values (p :: points) =
        {z | z ∈ points.map side.axis.of} ∪ {side.axis.of p} := by
      ext z
      simp [Axis.values, eq_comm]
    rw [of_foldl_extend_point, hvalues]
    exact (isBound_singleton _).foldl hα _

end Exact

end Side

section Rings

variable {α : Type} [Coordinate α]

/-- Closing a ring adds no new point. -/
theorem Polygon.mem_closeRing {points : List (Point α)} {p : Point α} :
    p ∈ Polygon.closeRing points ↔ p ∈ points := by
  cases points with
  | nil => rfl
  | cons first rest =>
    rw [closeRing]
    split
    · rfl
    · rw [List.mem_append, List.mem_singleton, or_iff_left_of_imp]
      rintro rfl
      exact List.mem_cons_self

/-- A geometry goes through the points it is made of. -/
theorem GeometryKind.mem_outline {kind : GeometryKind} {points : List (Point α)} {p : Point α} :
    p ∈ kind.outline points ↔ p ∈ points := by
  unfold outline
  split
  · exact Polygon.mem_closeRing
  · rfl

/-- Closing a ring brings in no coordinate. -/
theorem GeometryKind.values_outline (kind : GeometryKind) (axis : Axis) (points : List (Point α)) :
    axis.values (kind.outline points) = axis.values points := by
  ext x
  simp [Axis.values, GeometryKind.mem_outline]

/-- Points have a box around them unless there are none. -/
theorem Bounds.exists_of? {points : List (Point α)} (h : points ≠ []) :
    ∃ b, Bounds.of? points = some b := by
  cases points with
  | nil => contradiction
  | cons p points => exact ⟨_, rfl⟩

/-- The box around a ring is the box around its points, closed or not. -/
theorem Side.of_outline [LinearOrder α] (hα : ExactlyOrdered α) {kind : GeometryKind}
    {points : List (Point α)} {b b' : Bounds α} (h : Bounds.of? points = some b)
    (h' : Bounds.of? (kind.outline points) = some b') (side : Side) : side.of b' = side.of b := by
  have hbound := Side.isBound_of_bounds hα h' side
  rw [GeometryKind.values_outline] at hbound
  exact hbound.unique (Side.isBound_of_bounds hα h side)

end Rings

namespace Emulation

open SpatialSql.Expr

variable {α : Type} [Numeral α] {kind : GeometryKind} {g : Expr α}

/-- The form for a side of a box is the formula for that bound. -/
theorem emulate?_side (kind : GeometryKind) (side : Side) (g : Expr α) :
    emulate? kind side.op [g] = (emulateBound? kind side g).map .value := by
  obtain ⟨_ | _, _ | _⟩ := side <;> cases kind <;> rfl

/-- The sides of the geometry take a formula: it is neither known at once nor a point. -/
structure NeedsFormula (kind : GeometryKind) (g : Expr α) : Prop where
  present : g.isAbsent = false
  literal : g.literal? = none
  kind : kind ≠ .point

/-- A geometry that needs a formula is no literal. -/
theorem NeedsFormula.literalBound? (h : NeedsFormula kind g) (side : Side) :
    literalBound? side g = none := by
  rw [Emulation.literalBound?, h.literal]
  rfl

/-- A geometry that needs a formula has its bounds through its node. -/
theorem NeedsFormula.emulateBound? (h : NeedsFormula kind g) (side : Side) :
    emulateBound? kind side g = nodeBound? kind side g := by
  rw [Emulation.emulateBound?, h.literalBound? side, h.present, decide_eq_false h.kind]
  rfl

/-- As an operand, such a geometry has its sides asked of it. -/
theorem NeedsFormula.boundOf (h : NeedsFormula kind g) (side : Side) :
    boundOf kind side g = spatial₁ kind side.op g := by
  rw [Emulation.boundOf, h.present, if_neg Bool.false_ne_true, h.literalBound? side]
  exact if_neg h.kind

end Emulation

namespace Environment

open SpatialSql.Expr SpatialSql.Emulation

variable {α : Type} [Numeral α] {env : Environment α}

/-- In the row, a geometry of a kind goes through the given points: it is a construction that is no null
test and has points for its members, a column that holds the text of a segment, or a box around such a
geometry. The sides of what is in a box have the values of their portable forms. -/
inductive Outlines (env : Environment α) : GeometryKind → Expr α → List (Point α) → Prop
  | construct {kind : GeometryKind} {valueKind : ValueKind} {shape : Shape}
      {members : List (Expr α)} {points : List (Point α)} (hkind : kind ≠ .point)
      (hne : points ≠ []) (hm : List.Forall₂ env.DenotesPoint members points) :
      Outlines env kind (.node (.spatial kind .construct) valueKind shape members false)
        (kind.outline points)
  | stored {c : Column} {s : Segment α} (h : env.StoresText c s.wkt)
      (hread : ∀ x ∈ ordinates s.points, Numeral.read? (Numeral.text x) = some x) :
      Outlines env .segment (.column c) s.points
  | box {kind : GeometryKind} {g : Expr α} {points : List (Point α)}
      (h : Outlines env kind g points) (he : ∀ side : Side, env.Emulates kind side.op g) :
      Outlines env .polygon (spatial₁ kind .boundingBox g) points

variable {kind : GeometryKind} {g : Expr α} {points : List (Point α)}

/-- What has an outline in a row needs a formula. -/
theorem Outlines.needsFormula (h : env.Outlines kind g points) : NeedsFormula kind g := by
  cases h with
  | construct hkind _ _ => exact ⟨rfl, rfl, hkind⟩
  | stored _ _ => exact ⟨rfl, rfl, by decide⟩
  | box _ _ => exact ⟨rfl, rfl, by decide⟩

/-- The better of two numbers is computed by comparing them. -/
theorem number_extreme (side : Side) {a b : Expr α} {x y : α} (ha : env.number a = some x)
    (hb : env.number b = some y) : env.number (extreme side a b) = some (side.better x y) := by
  unfold extreme Side.better
  split
  · exact number_least ha hb
  · exact number_greatest ha hb

/-- The bound of many expressions is the best of their values, taken in order. -/
theorem number_foldl_extreme (side : Side) {es : List (Expr α)} {xs : List α} {a : Expr α} {x : α}
    (ha : env.number a = some x) (hes : List.Forall₂ (fun e x => env.number e = some x) es xs) :
    env.number (es.foldl (extreme side) a) = some (xs.foldl side.better x) := by
  induction hes generalizing a x with
  | nil => exact ha
  | cons he _ ih => exact ih (number_extreme side ha he)

/-- The bound of the members of a construction is the side of the box around their points. -/
theorem number_members (hr : env.ReadsPoints) {members : List (Expr α)}
    (hm : List.Forall₂ env.DenotesPoint members points) {b : Bounds α}
    (hb : Bounds.of? points = some b) (side : Side) :
    ∃ e, extremeOf? side (members.map (coordinate side.axis)) = some e ∧
      env.number e = some (side.of b) := by
  cases hm with
  | nil => contradiction
  | @cons m p members points hfirst hrest =>
    obtain rfl := Option.some.inj hb
    refine ⟨_, rfl, ?_⟩
    rw [Side.of_foldl_extend_point]
    refine number_foldl_extreme side (number_coordinate hr hfirst side.axis) ?_
    rw [List.forall₂_map_left_iff, List.forall₂_map_right_iff]
    exact hrest.imp fun _ _ h => number_coordinate hr h side.axis

/-- The ends of a stored segment are read from its text. -/
theorem endsAt_stored (hα : ∀ x : α, IsOrdinate (Numeral.text x)) {c : Column} {s : Segment α}
    (h : env.StoresText c s.wkt)
    (hread : ∀ x ∈ ordinates s.points, Numeral.read? (Numeral.text x) = some x) :
    env.EndsAt (segmentEnds (.column c)) s := by
  have hordinate {n : UInt32} {x : α} (hx : (ordinates s.points)[n.toNat]? = some x) :
      env.number ((textOf .segment (.column c)).ordinate n) = some x := by
    apply number_of_eval
    have hvalue : (Literal.segment s).wkt? = some (.segment, s.wkt) := rfl
    rw [eval_ordinate, h.text_textOf, Option.bind_some, ordinateOf?_wkt hα hvalue]
    change (((ordinates s.points)[n.toNat]?.bind _).map Literal.number) = _
    rw [hx, Option.bind_some, hread x (List.mem_of_getElem? hx)]
    rfl
  exact ⟨hordinate rfl, hordinate rfl, hordinate rfl, hordinate rfl⟩

/-- A side of a stored segment is the better of the coordinates of its ends. -/
theorem number_ends {c : Column} {s : Segment α} (h : env.EndsAt (segmentEnds (.column c)) s)
    (side : Side) :
    ∃ e, nodeBound? .segment side (.column c) = some e ∧ env.number e = some (side.of s.bounds) := by
  rw [Segment.bounds, Side.of_extend, Side.of_point]
  obtain ⟨_ | _, isMin⟩ := side
  · exact ⟨_, rfl, number_extreme _ h.x₁ h.x₂⟩
  · exact ⟨_, rfl, number_extreme _ h.y₁ h.y₂⟩

/-- Along every path, the formula for a side comes to the side of the box around the points. The
induction is on the boxes: the formula for the side of a box is the side of what it encloses, which has
the value of its own formula. -/
theorem Outlines.number_emulateBound? [LinearOrder α] (hα : ExactlyOrdered α)
    (hspelled : ∀ x : α, IsOrdinate (Numeral.text x)) (hr : env.ReadsPoints)
    (h : env.Outlines kind g points) :
    ∃ b, Bounds.of? points = some b ∧
      ∀ side, ∃ e, emulateBound? kind side g = some e ∧ env.number e = some (side.of b) := by
  induction h with
  | @construct kind valueKind shape members points hkind hne hm =>
    obtain ⟨b, hb⟩ := Bounds.exists_of? hne
    have hclosed : kind.outline points ≠ [] := by
      obtain ⟨p, hp⟩ := List.exists_mem_of_ne_nil points hne
      exact List.ne_nil_of_mem (GeometryKind.mem_outline.mpr hp)
    obtain ⟨b', hb'⟩ := Bounds.exists_of? hclosed
    refine ⟨b', hb', fun side => ?_⟩
    rw [(Outlines.construct hkind hne hm).needsFormula.emulateBound?,
      Side.of_outline hα hb hb']
    exact number_members hr hm hb side
  | @stored c s hstored hread =>
    refine ⟨s.bounds, rfl, fun side => ?_⟩
    rw [(Outlines.stored hstored hread).needsFormula.emulateBound?]
    exact number_ends (endsAt_stored hspelled hstored hread) side
  | @box kind g points hg he ih =>
    obtain ⟨b, hb, hsides⟩ := ih
    refine ⟨b, hb, fun side => ?_⟩
    obtain ⟨e, hform, hvalue⟩ := hsides side
    have hasked : env.eval (spatial₁ kind side.op g) = env.eval e :=
      he side e (by rw [emulate?_side, hform]; rfl)
    refine ⟨boundOf kind side g, (hg.box he).needsFormula.emulateBound? side, ?_⟩
    rw [hg.needsFormula.boundOf, ← hvalue, number, number, hasked]

/-- With exactly ordered coordinates, the formula for a side of the box around a geometry that is no
literal comes to that side of the box around its points, and this is the least or the greatest of their
coordinates along the axis. -/
theorem eval_emulated_side [LinearOrder α] (hα : ExactlyOrdered α)
    (hspelled : ∀ x : α, IsOrdinate (Numeral.text x)) (env : Environment α) (hr : env.ReadsPoints)
    (kind : GeometryKind) (g : Expr α) (points : List (Point α))
    (h : env.Outlines kind g points) :
    ∃ b, Bounds.of? points = some b ∧ ∀ side : Side,
      side.IsBound (side.axis.values points) (side.of b) ∧
      ∃ e, emulate? kind side.op [g] = some (.value e) ∧
        env.eval e = some (.number (side.of b)) := by
  obtain ⟨b, hb, hsides⟩ := h.number_emulateBound? hα hspelled hr
  refine ⟨b, hb, fun side => ⟨Side.isBound_of_bounds hα hb side, ?_⟩⟩
  obtain ⟨e, hform, hvalue⟩ := hsides side
  exact ⟨e, by rw [emulate?_side, hform]; rfl, eval_of_number hvalue⟩

/-- Rational numbers are ordered exactly. -/
theorem exactlyOrdered_fractions : ExactlyOrdered ℚ where
  least _ _ := rfl
  greatest _ _ := rfl

/-- Texts without separators may be put together. -/
theorem isOrdinate_append {s t : String} (hs : IsOrdinate s) (ht : IsOrdinate t) :
    IsOrdinate (s ++ t) where
  ne_nil := by simp [hs.ne_nil]
  solid c hc := by
    rw [String.toList_append] at hc
    exact (List.mem_append.mp hc).elim (hs.solid c) (ht.solid c)

/-- The digits of a natural number hold no separator. -/
theorem isOrdinate_repr (n : ℕ) : IsOrdinate n.repr where
  ne_nil := by rw [Nat.toList_repr]; exact Nat.toDigits_ne_nil
  solid c hc := by
    rw [Nat.toList_repr] at hc
    have hdigit := Nat.isDigit_of_mem_toDigits (by decide) (by decide) hc
    refine separatesOrdinates_of_toNat (Decimal.toNat_of_isSpelling ?_)
    rw [Decimal.isSpelling, Decimal.isPlain, hdigit]
    rfl

/-- Neither does the text of a fraction. -/
theorem isOrdinate_fractions (x : ℚ) : IsOrdinate (Numeral.text x) := by
  have hsign : IsOrdinate "-" :=
    ⟨by decide, show ∀ c ∈ ['-'], _ from List.forall_mem_singleton.mpr (by decide)⟩
  have hslash : IsOrdinate "/" :=
    ⟨by decide, show ∀ c ∈ ['/'], _ from List.forall_mem_singleton.mpr (by decide)⟩
  have hwhole (n : ℤ) : IsOrdinate (toString n) := by
    cases n with
    | ofNat n => exact isOrdinate_repr n
    | negSucc n => exact isOrdinate_append hsign (isOrdinate_repr (n + 1))
  change IsOrdinate (if x.den = 1 then toString x.num
    else toString x.num ++ "/" ++ toString x.den)
  split
  · exact hwhole x.num
  · exact isOrdinate_append (isOrdinate_append (hwhole x.num) hslash) (isOrdinate_repr x.den)

/-- The side of a box that an operator gives. -/
def sideOf? : SpatialOp → Option Side
  | .minX => some .minX
  | .maxX => some .maxX
  | .minY => some .minY
  | .maxY => some .maxY
  | _ => none

/-- A row with a point, a number and a segment that is stored as text, in a database that computes
points, polygons and boxes itself. -/
def survey : Environment ℚ where
  column c :=
    if c.name = "corner" then some (.point ⟨4, 1⟩)
    else if c.name = "track" then some (.text (Segment.mk ⟨5, -2⟩ ⟨1, 7⟩ : Segment ℚ).wkt)
    else some (.number 3)
  spatial kind op args :=
    match kind, op, args with
    | .point, .construct, [v, w] =>
      Option.map₂ (fun x y => .point ⟨x, y⟩) (v.bind Literal.number?) (w.bind Literal.number?)
    | .point, .getX, [v] => v.bind (Literal.ordinate? .x)
    | .point, .getY, [v] => v.bind (Literal.ordinate? .y)
    | kind, .construct, [some (.point p), some (.point q), some (.point r)] =>
      Literal.through? kind [p, q, r]
    | _, .asText, [v] => v
    | _, .boundingBox, [v] =>
      (v.bind fun v => v.bounds?.join).map fun b => .polygon (.rectangle b)
    | _, op, [v] =>
      (sideOf? op).bind fun side => (v.bind fun v => v.bounds?.join).map fun b => .number (side.of b)
    | _, _, _ => none
  aggregate _ _ := none
  quotientByZero _ := none
  rootBelowZero _ := none
  numberOfWords _ := none

theorem readsPoints_survey : survey.ReadsPoints where
  construct _ _ := rfl
  getter axis _ := by cases axis <;> rfl

section Survey

variable {g : Expr ℚ} {v : Literal ℚ} {b : Bounds ℚ}

/-- The database of the survey knows the sides of what it has computed. -/
theorem eval_side_survey (hv : survey.eval g = some v) (hb : v.bounds? = some (some b))
    (kind : GeometryKind) (side : Side) :
    survey.eval (spatial₁ kind side.op g) = some (.number (side.of b)) := by
  have hknown : (v.bounds?.join).map (fun b => Literal.number (side.of b)) =
      some (.number (side.of b)) := by
    rw [hb]
    rfl
  rw [eval_spatial₁ hv, ← hknown]
  obtain ⟨_ | _, _ | _⟩ := side <;> cases kind <;> rfl

/-- And the box around it. -/
theorem eval_box_survey (hv : survey.eval g = some v) (hb : v.bounds? = some (some b))
    (kind : GeometryKind) :
    survey.eval (spatial₁ kind .boundingBox g) = some (.polygon (.rectangle b)) := by
  have hknown : (v.bounds?.join).map (fun b => Literal.polygon (.rectangle b)) =
      some (.polygon (.rectangle b)) := by
    rw [hb]
    rfl
  rw [eval_spatial₁ hv, ← hknown]
  cases kind <;> rfl

/-- The sides of a geometry whose value is known have the values of their portable forms. -/
theorem emulates_survey {kind : GeometryKind} {points : List (Point ℚ)}
    (h : survey.Outlines kind g points) (hv : survey.eval g = some v)
    (hb : v.bounds? = some (Bounds.of? points)) (side : Side) : survey.Emulates kind side.op g := by
  intro e he
  obtain ⟨b, hpoints, hsides⟩ :=
    h.number_emulateBound? exactlyOrdered_fractions isOrdinate_fractions readsPoints_survey
  obtain ⟨e', hform, hvalue⟩ := hsides side
  rw [emulate?_side, hform] at he
  cases he
  rw [eval_of_number hvalue, eval_side_survey hv (hb.trans (congrArg some hpoints))]

end Survey

/-- The corners of a zone: a column, a literal and a point with a column in it. -/
def zoneCorners : List (Expr ℚ) :=
  let column (name : String) (kind : ValueKind) : Expr ℚ := .column ⟨⟨"t", none⟩, name, kind⟩
  [column "corner" (.geometry .point), .point ⟨0, 2⟩,
    construct .point [column "height" .number, .number (-1)]]

/-- The points of a zone, the first one again at the end. -/
def zoneRing : List (Point ℚ) := [⟨4, 1⟩, ⟨0, 2⟩, ⟨3, -1⟩, ⟨4, 1⟩]

/-- The box around a zone. -/
def zoneBox : Expr ℚ := spatial₁ .polygon .boundingBox (construct .polygon zoneCorners)

/-- A segment that is stored as text. -/
def track : Column := ⟨⟨"t", none⟩, "track", .geometry .segment⟩

/-- The construction of the zone goes through its ring. -/
theorem outlines_zone : survey.Outlines .polygon (construct .polygon zoneCorners) zoneRing := by
  have hcorner : HasKind (.geometry .point)
      (construct .point [.column ⟨⟨"t", none⟩, "height", .number⟩, .number (-1 : ℚ)]) :=
    hasKind_construct rfl (List.forall_mem_cons.mpr ⟨⟨.column _, rfl⟩,
      List.forall_mem_singleton.mpr ⟨.literal _, rfl⟩⟩)
  have hring : GeometryKind.outline .polygon [⟨4, 1⟩, ⟨0, 2⟩, (⟨3, -1⟩ : Point ℚ)] = zoneRing := by
    decide +kernel
  rw [← hring]
  refine .construct (by decide) (List.cons_ne_nil _ _) ?_
  exact .cons ⟨⟨.column _, rfl⟩, rfl⟩ (.cons ⟨⟨.literal _, rfl⟩, rfl⟩ (.cons ⟨hcorner, rfl⟩ .nil))

theorem eval_zone : survey.eval (construct .polygon zoneCorners) = some (.polygon ⟨zoneRing⟩) := rfl

/-- The ring and the box around it have the same sides. -/
theorem bounds?_zone :
    (Literal.polygon ⟨zoneRing⟩).bounds? = some (some ⟨0, -1, 4, 2⟩) ∧
    (Literal.polygon (.rectangle ⟨0, -1, 4, 2⟩) : Literal ℚ).bounds? =
      some (some ⟨0, -1, 4, 2⟩) ∧
    Bounds.of? zoneRing = some ⟨0, -1, 4, 2⟩ := by
  decide +kernel

/-- Boxes may be wrapped around a zone, as each has its sides from what it encloses. -/
theorem outlines_zoneBox :
    survey.Outlines .polygon (spatial₁ .polygon .boundingBox zoneBox) zoneRing := by
  obtain ⟨hzone, hbox, hring⟩ := bounds?_zone
  rw [← hring] at hzone hbox
  have hinner : survey.Outlines .polygon zoneBox zoneRing :=
    outlines_zone.box (emulates_survey outlines_zone eval_zone hzone)
  exact hinner.box (emulates_survey hinner (eval_box_survey eval_zone (hzone.trans
    (congrArg some hring)) .polygon) hbox)

/-- The coordinates of the track read back from their texts. -/
theorem read?_track : ∀ x ∈ ordinates [⟨5, -2⟩, (⟨1, 7⟩ : Point ℚ)],
    Numeral.read? (Numeral.text x) = some x := by
  decide +kernel

/-- A track that is stored as text goes through its two ends. -/
theorem outlines_track : survey.Outlines .segment (.column track) [⟨5, -2⟩, ⟨1, 7⟩] := by
  refine Outlines.stored (s := ⟨⟨5, -2⟩, ⟨1, 7⟩⟩) ⟨rfl, fun kind e he => ?_⟩ read?_track
  have hcolumn : e = .column track := by cases kind <;> cases he <;> rfl
  rw [hcolumn]
  cases kind <;> rfl

/-- The sides of a box around the box around a zone, and those of a stored segment. -/
theorem eval_emulated_side_survey :
    survey.ReadsPoints ∧
    survey.Outlines .polygon (spatial₁ .polygon .boundingBox zoneBox) zoneRing ∧
    survey.Outlines .segment (.column track) [⟨5, -2⟩, ⟨1, 7⟩] ∧
    (∀ side : Side, ∃ e,
      emulate? .polygon side.op [spatial₁ .polygon .boundingBox zoneBox] = some (.value e) ∧
        survey.eval e = some (.number (side.of ⟨0, -1, 4, 2⟩))) ∧
    ∀ side : Side, ∃ e, emulate? .segment side.op [.column track] = some (.value e) ∧
      survey.eval e = some (.number (side.of ⟨1, -2, 5, 7⟩)) := by
  obtain ⟨b, hb, hsides⟩ := eval_emulated_side exactlyOrdered_fractions isOrdinate_fractions survey
    readsPoints_survey _ _ _ outlines_zoneBox
  obtain ⟨b', hb', hsides'⟩ := eval_emulated_side exactlyOrdered_fractions isOrdinate_fractions
    survey readsPoints_survey _ _ _ outlines_track
  have htrack : Bounds.of? [⟨5, -2⟩, (⟨1, 7⟩ : Point ℚ)] = some ⟨1, -2, 5, 7⟩ := by decide +kernel
  obtain rfl := Option.some.inj (hb.symm.trans bounds?_zone.2.2)
  obtain rfl := Option.some.inj (hb'.symm.trans htrack)
  exact ⟨readsPoints_survey, outlines_zoneBox, outlines_track, fun side => (hsides side).2,
    fun side => (hsides' side).2⟩

end Environment

end SpatialSql
