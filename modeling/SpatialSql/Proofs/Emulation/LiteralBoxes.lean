import SpatialSql.Proofs.Decimal.Order
import SpatialSql.Proofs.Emulation.Rectangle
import SpatialSql.Proofs.Meaning.Bounds

/-!
# Boxes of literals

The sides of the box around a literal are the extreme coordinates of its points, and of several
at the extreme place the one that comes first: a zero keeps the sign it has there. The two sides
along an axis are sought from the same first coordinate, so they are in order or the same double.
This is why the box around a box is that box, with all its corners and to the sign of a zero.
-/

namespace SpatialSql

/-- A defined point has defined coordinates. -/
theorem Point.Defined.of {p : Point Float} (h : p.Defined) (axis : Axis) :
    (axis.of p).isNaN = false := by
  cases axis with
  | x => exact h.1
  | y => exact h.2

namespace Side

/-- The other side along the same axis. -/
def opposite (side : Side) : Side := ⟨side.axis, !side.isMin⟩

/-- The first double is a bound for the second one on its side. -/
def Limits (side : Side) (x y : Float) : Prop := if side.isMin then x ≤ y else y ≤ x

/-- The first double is strictly further out than the second one. -/
def Beats (side : Side) (x y : Float) : Prop := if side.isMin then x < y else y < x

section Doubles

variable {side : Side} {x y z : Float}

/-- Beating on one side is being beaten on the opposite one. -/
theorem opposite_beats : side.opposite.Beats x y ↔ side.Beats y x := by
  obtain ⟨axis, _ | _⟩ := side <;> simp [Beats, opposite]

/-- The places of two doubles, further out first. -/
theorem limits_iff_place (hx : x.isNaN = false) (hy : y.isNaN = false) :
    side.Limits x y ↔
      if side.isMin then Decimal.place x ≤ Decimal.place y
      else Decimal.place y ≤ Decimal.place x := by
  rw [Limits, Decimal.le_iff_place_le hx hy, Decimal.le_iff_place_le hy hx]

/-- A double is a bound for itself. -/
theorem limits_refl (hx : x.isNaN = false) : side.Limits x x := by
  rw [limits_iff_place hx hx, ite_self]

/-- Bounds for bounds are bounds. -/
theorem Limits.trans (h : side.Limits x y) (h' : side.Limits y z) (hx : x.isNaN = false)
    (hy : y.isNaN = false) (hz : z.isNaN = false) : side.Limits x z := by
  rw [limits_iff_place hx hy] at h
  rw [limits_iff_place hy hz] at h'
  rw [limits_iff_place hx hz]
  obtain ⟨axis, _ | _⟩ := side
  · exact le_trans h' h
  · exact le_trans h h'

/-- Doubles that are bounds for each other are equal, but for the sign of a zero. -/
theorem Limits.beq (h : side.Limits x y) (h' : side.Limits y x) (hx : x.isNaN = false)
    (hy : y.isNaN = false) : (x == y) = true := by
  rw [limits_iff_place hx hy] at h
  rw [limits_iff_place hy hx] at h'
  rw [Decimal.beq_iff_place_eq hx hy]
  obtain ⟨axis, _ | _⟩ := side
  · exact le_antisymm h' h
  · exact le_antisymm h h'

/-- One double beats another exactly if the other does not limit it. -/
theorem beats_iff_not_limits (hx : x.isNaN = false) (hy : y.isNaN = false) :
    side.Beats x y ↔ ¬ side.Limits y x := by
  rw [limits_iff_place hy hx, Beats, Decimal.lt_iff_place_lt hx hy, Decimal.lt_iff_place_lt hy hx]
  split <;> exact not_le.symm

/-- What beats a double limits it. -/
theorem Beats.limits (h : side.Beats x y) (hx : x.isNaN = false) (hy : y.isNaN = false) :
    side.Limits x y := by
  rw [Beats, Decimal.lt_iff_place_lt hx hy, Decimal.lt_iff_place_lt hy hx] at h
  rw [limits_iff_place hx hy]
  obtain ⟨axis, _ | _⟩ := side <;> exact le_of_lt h

/-- What limits a double beats whatever that double beats. -/
theorem Limits.trans_beats (h : side.Limits x y) (h' : side.Beats y z) (hx : x.isNaN = false)
    (hy : y.isNaN = false) (hz : z.isNaN = false) : side.Beats x z := by
  rw [beats_iff_not_limits hx hz]
  intro hzx
  exact (beats_iff_not_limits hy hz).mp h' (hzx.trans h hz hx hy)

/-- The second of two doubles is taken only if it is further out. -/
theorem better_cases (side : Side) (hx : x.isNaN = false) (hy : y.isNaN = false) :
    side.better x y = x ∧ side.Limits x y ∨ side.better x y = y ∧ side.Beats y x := by
  unfold better Limits Beats
  split
  · have hlesser : Coordinate.least x y = if Decimal.place y < Decimal.place x then y else x :=
      Decimal.lesser_eq hx hy
    rw [hlesser, Decimal.le_iff_place_le hx hy, Decimal.lt_iff_place_lt hy hx]
    split
    · next hlt => exact .inr ⟨rfl, hlt⟩
    · next hle => exact .inl ⟨rfl, not_lt.mp hle⟩
  · have hlarger : Coordinate.greatest x y = if Decimal.place x < Decimal.place y then y else x :=
      Decimal.larger_eq hx hy
    rw [hlarger, Decimal.le_iff_place_le hy hx, Decimal.lt_iff_place_lt hx hy]
    split
    · next hlt => exact .inr ⟨rfl, hlt⟩
    · next hle => exact .inl ⟨rfl, not_lt.mp hle⟩

end Doubles

/-- One of the doubles, a bound for all of them and the first one or further out than that. -/
structure IsExtreme (side : Side) (values : List Float) (z : Float) : Prop where
  mem : z ∈ values
  limits : ∀ x ∈ values, side.Limits z x
  first : ∀ x ∈ values.head?, z = x ∨ side.Beats z x

variable {side : Side} {x y z : Float} {rest : List Float}

/-- One more double, compared with the first one: whichever of the two is kept limits the other. -/
theorem IsExtreme.cons (h : side.IsExtreme (side.better x y :: rest) z)
    (hd : ∀ v ∈ x :: y :: rest, v.isNaN = false) : side.IsExtreme (x :: y :: rest) z := by
  have hx : x.isNaN = false := hd x (.head _)
  have hy : y.isNaN = false := hd y (.tail _ (.head _))
  have hrest : ∀ v ∈ rest, side.Limits z v := fun v hv => h.limits v (.tail _ hv)
  rcases better_cases side hx hy with ⟨hkept, hxy⟩ | ⟨htaken, hyx⟩
  · rw [hkept] at h
    have hmem : z ∈ x :: y :: rest := ((List.sublist_cons_self y rest).cons_cons x).subset h.mem
    have hzx := h.limits x (.head _)
    have hzy := hzx.trans hxy (hd z hmem) hx hy
    refine ⟨hmem, ?_, h.first⟩
    simp only [List.forall_mem_cons]
    exact ⟨hzx, hzy, hrest⟩
  · rw [htaken] at h
    have hmem : z ∈ x :: y :: rest := .tail _ h.mem
    have hzy := h.limits y (.head _)
    have hzx : side.Beats z x := hzy.trans_beats hyx (hd z hmem) hy hx
    refine ⟨hmem, ?_, ?_⟩
    · simp only [List.forall_mem_cons]
      exact ⟨hzx.limits (hd z hmem) hx, hzy, hrest⟩
    · rintro _ ⟨⟩
      exact .inr hzx

/-- The best of many doubles, taken one after the other. -/
theorem isExtreme_foldl (side : Side) (x : Float) (rest : List Float)
    (hd : ∀ v ∈ x :: rest, v.isNaN = false) :
    side.IsExtreme (x :: rest) (rest.foldl side.better x) := by
  induction rest generalizing x with
  | nil =>
    refine ⟨.head _, ?_, ?_⟩
    · simpa using limits_refl (hd x (.head _))
    · rintro _ ⟨⟩
      exact .inl rfl
  | cons y rest ih =>
    have hbetter : ∀ v ∈ side.better x y :: rest, v.isNaN = false := by
      simp only [List.forall_mem_cons] at hd ⊢
      obtain ⟨hx, hy, hrest⟩ := hd
      rcases better_cases side hx hy with ⟨h, -⟩ | ⟨h, -⟩
      · rw [h]
        exact ⟨hx, hrest⟩
      · rw [h]
        exact ⟨hy, hrest⟩
    exact (ih _ hbetter).cons hd

end Side

namespace Bounds

variable {b : Bounds Float} {c : Point Float}

/-- A corner has a side of the box along each axis. -/
theorem mem_corners :
    c ∈ b.corners ↔ (c.x = b.minX ∨ c.x = b.maxX) ∧ (c.y = b.minY ∨ c.y = b.maxY) := by
  cases c with
  | mk x y =>
    simp only [corners, List.mem_cons, Point.mk.injEq, List.not_mem_nil, or_false]
    tauto

/-- A corner is on one of the two sides along an axis. -/
theorem of_corner (hc : c ∈ b.corners) (side : Side) :
    side.axis.of c = side.of b ∨ side.axis.of c = side.opposite.of b := by
  obtain ⟨hx, hy⟩ := mem_corners.mp hc
  obtain ⟨_ | _, _ | _⟩ := side
  · exact hx.symm
  · exact hx
  · exact hy.symm
  · exact hy

/-- Two opposite corners meet all sides. -/
theorem exists_corner (b : Bounds Float) (side : Side) :
    ∃ c ∈ b.corners, side.axis.of c = side.of b := by
  obtain ⟨axis, _ | _⟩ := side
  · refine ⟨⟨b.maxX, b.maxY⟩, mem_corners.mpr ⟨.inr rfl, .inr rfl⟩, ?_⟩
    cases axis <;> rfl
  · refine ⟨b.lowerLeft, mem_corners.mpr ⟨.inl rfl, .inl rfl⟩, ?_⟩
    cases axis <;> rfl

/-- Closing the ring of a rectangle adds no new corner. -/
theorem mem_ring_rectangle : c ∈ (Polygon.rectangle b).ring ↔ c ∈ b.corners := by
  change c ∈ Polygon.closeRing b.corners ↔ _
  exact Polygon.mem_closeRing

/-- Boxes with the same four sides are the same. -/
theorem ext_of {b b' : Bounds Float} (h : ∀ side : Side, side.of b = side.of b') : b = b' := by
  cases b with
  | mk minX minY maxX maxY =>
    cases b' with
    | mk minX' minY' maxX' maxY' =>
      obtain rfl : minX = minX' := h .minX
      obtain rfl : minY = minY' := h .minY
      obtain rfl : maxX = maxX' := h .maxX
      obtain rfl : maxY = maxY' := h .maxY
      rfl

section Around

variable {points : List (Point Float)} (h : Bounds.of? points = some b)
  (hd : ∀ p ∈ points, p.Defined)

include hd in
theorem isNaN_of_mem_map (axis : Axis) : ∀ v ∈ points.map axis.of, v.isNaN = false := by
  rintro _ hv
  obtain ⟨p, hp, rfl⟩ := List.mem_map.mp hv
  exact (hd p hp).of axis

include h hd

/-- The sides of the box around points are extreme among their coordinates. -/
theorem isExtreme_of? (side : Side) : side.IsExtreme (points.map side.axis.of) (side.of b) := by
  cases points with
  | nil => contradiction
  | cons p points =>
    obtain rfl := Option.some.inj h
    rw [Side.of_foldl_extend_point]
    exact Side.isExtreme_foldl side _ _ (isNaN_of_mem_map hd side.axis)

/-- The sides of the box are coordinates of points. -/
theorem exists_of_eq (side : Side) : ∃ p ∈ points, side.axis.of p = side.of b :=
  List.mem_map.mp (isExtreme_of? h hd side).mem

theorem isNaN_of (side : Side) : (side.of b).isNaN = false :=
  isNaN_of_mem_map hd side.axis _ (isExtreme_of? h hd side).mem

/-- The sides of a box do not depend on the order of the points. -/
theorem beq_of_perm {others : List (Point Float)} {b' : Bounds Float}
    (h' : Bounds.of? others = some b') (hperm : others.Perm points) (side : Side) :
    (side.of b' == side.of b) = true := by
  have hd' : ∀ p ∈ others, p.Defined := fun p hp => hd p (hperm.mem_iff.mp hp)
  have hvalues := hperm.map side.axis.of
  have hz := isExtreme_of? h hd side
  have hz' := isExtreme_of? h' hd' side
  exact (hz'.limits _ (hvalues.mem_iff.mpr hz.mem)).beq (hz.limits _ (hvalues.mem_iff.mp hz'.mem))
    (isNaN_of h' hd' side) (isNaN_of h hd side)

/-- Two sides along one axis are the same double, or they are in order. Both are sought from the
coordinate of the first point. -/
theorem eq_or_beats_opposite (side : Side) :
    side.of b = side.opposite.of b ∨ side.Beats (side.of b) (side.opposite.of b) := by
  have hz := isExtreme_of? h hd side
  have hz' := isExtreme_of? h hd side.opposite
  have hdef := isNaN_of h hd side
  have hdef' := isNaN_of h hd side.opposite
  cases points with
  | nil => contradiction
  | cons p points =>
    rcases hz'.first _ rfl with heq | hbeats
    · rw [heq]
      exact hz.first _ rfl
    · have hp := (hd p (.head _)).of side.axis
      have hlimits := hz.limits _ (.head _)
      exact .inr (hlimits.trans_beats (Side.opposite_beats.mp hbeats) hdef hp hdef')

/-- The corners of a box around defined points are defined. -/
theorem defined_corner (hc : c ∈ b.corners) : c.Defined := by
  obtain ⟨hx, hy⟩ := mem_corners.mp hc
  constructor
  · rcases hx with hx | hx <;> rw [hx]
    · exact isNaN_of h hd .minX
    · exact isNaN_of h hd .maxX
  · rcases hy with hy | hy <;> rw [hy]
    · exact isNaN_of h hd .minY
    · exact isNaN_of h hd .maxY

/-- The box around the corners of a box is the box. A corner on the other side is extreme only if
the two sides are the same double. -/
theorem of?_ring_rectangle : Bounds.of? (Polygon.rectangle b).ring = some b := by
  have hring : ∀ c ∈ (Polygon.rectangle b).ring, c.Defined :=
    fun c hc => defined_corner h hd (mem_ring_rectangle.mp hc)
  obtain ⟨c₀, hc₀, -⟩ := exists_corner b .minX
  obtain ⟨b', hb'⟩ := exists_of? (List.ne_nil_of_mem (mem_ring_rectangle.mpr hc₀))
  rw [hb']
  refine congrArg some (ext_of fun side => ?_)
  obtain ⟨c, hc, hside⟩ := exists_of_eq hb' hring side
  rcases of_corner (mem_ring_rectangle.mp hc) side with heq | hopposite
  · rw [← hside, heq]
  · obtain ⟨c₁, hc₁, hfar⟩ := exists_corner b side
    have hlimits : side.Limits (side.opposite.of b) (side.of b) := by
      rw [← hopposite, hside, ← hfar]
      exact (isExtreme_of? hb' hring side).limits _
        (List.mem_map_of_mem (mem_ring_rectangle.mpr hc₁))
    rcases eq_or_beats_opposite h hd side with heq | hbeats
    · rw [← hside, hopposite, heq]
    · have hnot := (Side.beats_iff_not_limits (isNaN_of h hd side)
        (isNaN_of h hd side.opposite)).mp hbeats
      exact absurd hlimits hnot

end Around

end Bounds

/-- The box around a geometry is the box around its points. -/
theorem Literal.bounds?_of_points {value : Literal Float} {b : Bounds Float}
    (h : Bounds.of? value.points = some b) : value.bounds? = some (some b) := by
  cases value with
  | point p => exact congrArg some h
  | line l => exact congrArg some h
  | segment s => exact congrArg some h
  | multiPoint m => exact congrArg some h
  | polygon p =>
    change Bounds.of? p.ring = some b at h
    rw [Literal.bounds?, Polygon.bounds, h]
    rfl
  | bool _ => contradiction
  | number _ => contradiction
  | text _ => contradiction

namespace Emulation

open SpatialSql.Expr

/-- A side of the box around a literal is a number. -/
theorem emulate?_side_literal {b : Bounds Float} {value : Literal Float}
    (h : value.bounds? = some (some b)) (kind : GeometryKind) (side : Side) :
    emulate? kind side.op [.literal value] = some (.value (number (side.of b))) := by
  have hbound : literalBound? side (.literal value) = some (number (side.of b)) := by
    change (value.bounds?).map _ = _
    rw [h]
    rfl
  have hpresent : (Expr.literal value).isAbsent = false := rfl
  rw [emulate?_side, emulateBound?, boundOf, hbound, hpresent]
  rfl

/-- The box around defined points bounds all of them, each of its sides is a coordinate of one of
them, and the sides of the box around the points in another order compare equal. Asked of a literal
geometry through these points, the box is the literal rectangle, and the sides are numbers. Asked of
that rectangle, the box is the same literal again, and the sides are the same numbers. -/
theorem box_of_literal_fixed (points : List (Point Float)) (hne : points ≠ [])
    (hd : ∀ p ∈ points, p.Defined) :
    ∃ b, Bounds.of? points = some b ∧
      (∀ side : Side, (∀ p ∈ points, side.Limits (side.of b) (side.axis.of p)) ∧
        ∃ p ∈ points, side.axis.of p = side.of b) ∧
      (∀ others : List (Point Float), others.Perm points →
        ∃ b', Bounds.of? others = some b' ∧ ∀ side : Side, (side.of b' == side.of b) = true) ∧
      ∀ (kind : GeometryKind) (value : Literal Float), value.points = points →
        emulate? kind .boundingBox [.literal value] = some (.value (polygon (.rectangle b))) ∧
        emulate? .polygon .boundingBox [polygon (.rectangle b)] =
          some (.value (polygon (.rectangle b))) ∧
        ∀ side : Side,
          emulate? kind side.op [.literal value] = some (.value (number (side.of b))) ∧
          emulate? .polygon side.op [polygon (.rectangle b)] =
            some (.value (number (side.of b))) := by
  obtain ⟨b, hb⟩ := Bounds.exists_of? hne
  refine ⟨b, hb, fun side => ⟨?_, Bounds.exists_of_eq hb hd side⟩, ?_, ?_⟩
  · intro p hp
    exact (Bounds.isExtreme_of? hb hd side).limits _ (List.mem_map_of_mem hp)
  · intro others hperm
    have hne' : others ≠ [] := by
      rintro rfl
      exact hne (List.nil_perm.mp hperm)
    obtain ⟨b', hb'⟩ := Bounds.exists_of? hne'
    exact ⟨b', hb', Bounds.beq_of_perm hb hd hb' hperm⟩
  · rintro kind value rfl
    have hvalue := Literal.bounds?_of_points hb
    have hrectangle : (Literal.polygon (.rectangle b)).bounds? = some (some b) :=
      Literal.bounds?_of_points (Bounds.of?_ring_rectangle hb hd)
    refine ⟨emulate?_boundingBox_literal hvalue kind,
      emulate?_boundingBox_literal hrectangle .polygon, fun side => ?_⟩
    exact ⟨emulate?_side_literal hvalue kind side, emulate?_side_literal hrectangle .polygon side⟩

/-- Points on a vertical line through both zeros, one of them at infinity. -/
def zeroLine : List (Point Float) := [⟨-0, 2⟩, ⟨0, 1 / 0⟩, ⟨0, 2⟩]

/-- The box around them: it has no width, and the zero that comes first on two of its sides. -/
def zeroLineBox : Bounds Float := ⟨-0, 2, -0, 1 / 0⟩

/-- A box with both zeros and an infinity: each side keeps the first of the equal coordinates. -/
theorem box_of_literal_fixed_zeroLine :
    (zeroLine ≠ [] ∧ ∀ p ∈ zeroLine, p.Defined) ∧
    emulate? .multiPoint .boundingBox [.literal (.multiPoint ⟨zeroLine⟩)] =
      some (.value (polygon (.rectangle zeroLineBox))) ∧
    emulate? .polygon .boundingBox [polygon (.rectangle zeroLineBox)] =
      some (.value (polygon (.rectangle zeroLineBox))) ∧
    emulate? .polygon .maxX [polygon (.rectangle zeroLineBox)] = some (.value (number (-0))) := by
  have hne : zeroLine ≠ [] := List.cons_ne_nil _ _
  have hd : ∀ p ∈ zeroLine, p.Defined := by decide +kernel
  have hbox : Bounds.of? zeroLine = some zeroLineBox := by decide +kernel
  obtain ⟨b, hb, -, -, hfold⟩ := box_of_literal_fixed zeroLine hne hd
  obtain rfl := Option.some.inj (hbox.symm.trans hb)
  obtain ⟨hliteral, hfixed, hsides⟩ := hfold .multiPoint (.multiPoint ⟨zeroLine⟩) rfl
  exact ⟨⟨hne, hd⟩, hliteral, hfixed, (hsides .maxX).2⟩

end Emulation

end SpatialSql
