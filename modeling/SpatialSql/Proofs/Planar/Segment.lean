import SpatialSql.Planar.Segment
import SpatialSql.Proofs.Planar.Exact
import Mathlib.Tactic.FieldSimp
import Mathlib.Tactic.Linarith
import Mathlib.Tactic.Ring

/-!
# When two segments meet

A segment covers the points between its ends, and two segments meet when they cover a
common point. With exact coordinates two tests decide this: the one by opposite sides or
an end on the other segment, and the one by signs of products and overlapping boxes.
Nothing is assumed of the segments; they may be parallel, lie on one line or have no
length.
-/

namespace SpatialSql

section Ranges

variable {a b c d x u v : ℚ}

/-- The ranges between two pairs of numbers, in either order, have a number in common. -/
def RangesOverlap (a b c d : ℚ) : Prop := min a b ≤ max c d ∧ min c d ≤ max a b

/-- A ratio between zero and one stays between the numbers it divides. -/
theorem between_of_ratio (a b : ℚ) (h₀ : 0 ≤ u) (h₁ : u ≤ 1) :
    min a b ≤ a + u * (b - a) ∧ a + u * (b - a) ≤ max a b := by
  rcases le_total a b with h | h
  · rw [min_eq_left h, max_eq_right h]
    constructor <;> nlinarith
  · rw [min_eq_right h, max_eq_left h]
    constructor <;> nlinarith

/-- A number and its distance from another one have different signs only if it divides that other
one in a ratio between zero and one. -/
theorem ratio_of_mul_nonpos (hc : c ≠ 0) (h : x * (x - c) ≤ 0) : 0 ≤ x / c ∧ x / c ≤ 1 := by
  have hx : x = x / c * c := by field_simp
  have hsq : 0 < c * c := mul_self_pos.mpr hc
  have hprod : x / c * (x / c - 1) * (c * c) ≤ 0 := by
    calc x / c * (x / c - 1) * (c * c) = x / c * c * (x / c * c - c) := by ring
      _ = x * (x - c) := by rw [← hx]
      _ ≤ 0 := h
  have hratio : x / c * (x / c - 1) ≤ 0 := nonpos_of_mul_nonpos_left hprod hsq
  constructor <;> nlinarith

/-- What lies between two numbers divides them in a ratio between zero and one. -/
theorem exists_ratio_of_between (h₁ : min a b ≤ x) (h₂ : x ≤ max a b) :
    ∃ u, 0 ≤ u ∧ u ≤ 1 ∧ a + u * (b - a) = x := by
  by_cases hab : a = b
  · subst hab
    rw [min_self] at h₁
    rw [max_self] at h₂
    exact ⟨0, le_rfl, zero_le_one, by linarith⟩
  · have hne : b - a ≠ 0 := sub_ne_zero.mpr (Ne.symm hab)
    have hprod : (x - a) * (x - a - (b - a)) ≤ 0 := by
      rw [sub_sub_sub_cancel_right]
      rcases le_total a b with h | h
      · rw [min_eq_left h] at h₁
        rw [max_eq_right h] at h₂
        exact mul_nonpos_of_nonneg_of_nonpos (sub_nonneg.mpr h₁) (sub_nonpos.mpr h₂)
      · rw [min_eq_right h] at h₁
        rw [max_eq_left h] at h₂
        exact mul_nonpos_of_nonpos_of_nonneg (sub_nonpos.mpr h₂) (sub_nonneg.mpr h₁)
    obtain ⟨h₀, h₁⟩ := ratio_of_mul_nonpos hne hprod
    exact ⟨_, h₀, h₁, by rw [div_mul_cancel₀ _ hne]; ring⟩

/-- A range that is given by ratios of another one overlaps it only if the ratios reach into the
range from zero to one. -/
theorem ratios_of_rangesOverlap (hab : a ≠ b)
    (h : RangesOverlap a b (a + u * (b - a)) (a + v * (b - a))) : 0 ≤ max u v ∧ min u v ≤ 1 := by
  obtain ⟨h₁, h₂⟩ := h
  rw [le_max_iff] at h₁
  rw [min_le_iff] at h₂
  rw [le_max_iff, min_le_iff]
  rcases lt_or_gt_of_ne hab with hlt | hlt
  · rw [min_eq_left hlt.le] at h₁
    rw [max_eq_right hlt.le] at h₂
    constructor
    · exact h₁.imp (fun h => by nlinarith) fun h => by nlinarith
    · exact h₂.imp (fun h => by nlinarith) fun h => by nlinarith
  · rw [min_eq_right hlt.le] at h₁
    rw [max_eq_left hlt.le] at h₂
    constructor
    · exact h₂.imp (fun h => by nlinarith) fun h => by nlinarith
    · exact h₁.imp (fun h => by nlinarith) fun h => by nlinarith

end Ranges

namespace Segment

variable {s t : Segment ℚ} {p : Point ℚ} {u v : ℚ}

/-- The point that divides a segment in a given ratio; zero gives the start and one the end. -/
def along (s : Segment ℚ) (u : ℚ) : Point ℚ :=
  ⟨s.start.x + u * (s.stop.x - s.start.x), s.start.y + u * (s.stop.y - s.start.y)⟩

/-- The point lies between the ends of the segment. -/
def Covers (s : Segment ℚ) (p : Point ℚ) : Prop := ∃ u, 0 ≤ u ∧ u ≤ 1 ∧ s.along u = p

/-- The segments have a point in common. -/
def Meets (s t : Segment ℚ) : Prop := ∃ p, s.Covers p ∧ t.Covers p

/-- The cross product of the directions; it is zero for parallel segments. -/
def cross (s t : Segment ℚ) : ℚ :=
  (s.stop.x - s.start.x) * (t.stop.y - t.start.y) - (s.stop.y - s.start.y) * (t.stop.x - t.start.x)

theorem along_zero (s : Segment ℚ) : s.along 0 = s.start := by
  ext <;> simp [along]

theorem along_one (s : Segment ℚ) : s.along 1 = s.stop := by
  ext <;> simp [along]

/-- A segment covers its start. -/
theorem covers_start (s : Segment ℚ) : s.Covers s.start :=
  ⟨0, le_rfl, zero_le_one, s.along_zero⟩

/-- A segment covers its end. -/
theorem covers_stop (s : Segment ℚ) : s.Covers s.stop :=
  ⟨1, zero_le_one, le_rfl, s.along_one⟩

/-- Along a segment that has a length, different ratios give different points. -/
theorem along_injective (hs : s.start ≠ s.stop) (h : s.along u = s.along v) : u = v := by
  by_contra huv
  have hx := congrArg Point.x h
  have hy := congrArg Point.y h
  simp only [along, add_right_inj, mul_eq_mul_right_iff, huv, false_or, sub_eq_zero] at hx hy
  exact hs (Point.ext hx.symm hy.symm)

/-- Ratios along a segment whose ends are themselves given by ratios of another one. -/
theorem along_eq_along {a b : ℚ} (ha : s.along a = t.start) (hb : s.along b = t.stop) (v : ℚ) :
    t.along v = s.along (a + v * (b - a)) := by
  ext
  · simp only [along, ← ha, ← hb]
    ring
  · simp only [along, ← ha, ← hb]
    ring

end Segment

namespace Planar

open Segment Coordinate

variable {s t : Segment ℚ} {p : Point ℚ} {u v : ℚ}

section Orientation

/-- Seen from one segment, the orientation changes evenly along another. -/
theorem orientation_along (s t : Segment ℚ) (u : ℚ) :
    orientation s.start s.stop (t.along u) = orientation s.start s.stop t.start + u * s.cross t := by
  simp only [orientation, along, cross]
  ring

/-- Along a segment the orientation changes by the cross product. -/
theorem orientation_stop (s t : Segment ℚ) :
    orientation s.start s.stop t.stop = orientation s.start s.stop t.start + s.cross t := by
  rw [← t.along_one, orientation_along, one_mul]

/-- The cross product is antisymmetric. -/
theorem cross_swap (s t : Segment ℚ) : t.cross s = -s.cross t := by
  simp only [cross]
  ring

/-- A segment lies on its own line. -/
theorem orientation_along_self (s : Segment ℚ) (u : ℚ) :
    orientation s.start s.stop (s.along u) = 0 := by
  simp only [orientation, along]
  ring

/-- Where two segments have a common point, the ratios of that point tell how far their starts are
off each other's line. -/
theorem orientation_of_along_eq (h : s.along u = t.along v) :
    orientation t.start t.stop s.start = u * s.cross t ∧
      orientation s.start s.stop t.start = -(v * s.cross t) := by
  have hs : orientation s.start s.stop (t.along v) = 0 := h ▸ orientation_along_self s u
  have ht : orientation t.start t.stop (s.along u) = 0 := h ▸ orientation_along_self t v
  rw [orientation_along] at hs
  rw [orientation_along, cross_swap] at ht
  constructor <;> linarith

/-- On the line through a segment that has a length, every point divides it in some ratio. -/
theorem exists_along_of_orientation_eq_zero (hs : s.start ≠ s.stop)
    (hp : orientation s.start s.stop p = 0) : ∃ u, s.along u = p := by
  have hline : (s.stop.x - s.start.x) * (p.y - s.start.y) =
      (s.stop.y - s.start.y) * (p.x - s.start.x) := sub_eq_zero.mp hp
  by_cases hx : s.stop.x - s.start.x = 0
  · have hy : s.stop.y - s.start.y ≠ 0 := by
      intro hy
      exact hs (Point.ext (sub_eq_zero.mp hx).symm (sub_eq_zero.mp hy).symm)
    refine ⟨(p.y - s.start.y) / (s.stop.y - s.start.y), Point.ext ?_ ?_⟩
    · rw [hx, zero_mul, eq_comm, mul_eq_zero] at hline
      have hpx := hline.resolve_left hy
      simp only [along, hx]
      linarith
    · simp only [along]
      field_simp
      ring
  · refine ⟨(p.x - s.start.x) / (s.stop.x - s.start.x), Point.ext ?_ ?_⟩
    · simp only [along]
      field_simp
      ring
    · simp only [along]
      field_simp
      linarith

end Orientation

section Cover

/-- A point is within the box of a segment if its coordinates are between those of the ends. -/
theorem withinBox_iff : withinBox s p = true ↔
    (min s.start.x s.stop.x ≤ p.x ∧ p.x ≤ max s.start.x s.stop.x) ∧
      min s.start.y s.stop.y ≤ p.y ∧ p.y ≤ max s.start.y s.stop.y := by
  simp only [withinBox, Bool.and_eq_true, atMost_exact, least_exact, greatest_exact, and_assoc]

/-- A point is on a segment if it is on its line and within its box. -/
theorem onSegment_iff :
    onSegment s p = true ↔ orientation s.start s.stop p = 0 ∧ withinBox s p = true := by
  simp only [onSegment, Bool.and_eq_true, beq_iff_eq, zero_exact]

/-- On the line through a segment, the points in its box are the points it covers. -/
theorem onSegment_iff_covers : onSegment s p = true ↔ s.Covers p := by
  rw [onSegment_iff, withinBox_iff]
  constructor
  · rintro ⟨hline, ⟨hx₁, hx₂⟩, hy₁, hy₂⟩
    by_cases hs : s.start = s.stop
    · rw [← hs, min_self] at hx₁ hy₁
      rw [← hs, max_self] at hx₂ hy₂
      have hp : s.start = p := Point.ext (le_antisymm hx₁ hx₂) (le_antisymm hy₁ hy₂)
      exact hp ▸ s.covers_start
    · obtain ⟨u, rfl⟩ := exists_along_of_orientation_eq_zero hs hline
      have hratio : 0 ≤ max u u ∧ min u u ≤ 1 := by
        by_cases hx : s.start.x = s.stop.x
        · have hy : s.start.y ≠ s.stop.y := fun hy => hs (Point.ext hx hy)
          exact ratios_of_rangesOverlap hy ⟨by rwa [max_self], by rwa [min_self]⟩
        · exact ratios_of_rangesOverlap hx ⟨by rwa [max_self], by rwa [min_self]⟩
      rw [max_self, min_self] at hratio
      exact ⟨u, hratio.1, hratio.2, rfl⟩
  · rintro ⟨u, h₀, h₁, rfl⟩
    exact ⟨orientation_along_self s u, between_of_ratio _ _ h₀ h₁, between_of_ratio _ _ h₀ h₁⟩

end Cover

section Meet

/-- The boxes around two segments have a point in common. -/
def BoxesOverlap (s t : Segment ℚ) : Prop :=
  RangesOverlap s.start.x s.stop.x t.start.x t.stop.x ∧
    RangesOverlap s.start.y s.stop.y t.start.y t.stop.y

/-- The ends of each segment lie on different sides of the other's line, or on it. -/
def Straddle (s t : Segment ℚ) : Prop :=
  orientation t.start t.stop s.start * orientation t.start t.stop s.stop ≤ 0 ∧
    orientation s.start s.stop t.start * orientation s.start s.stop t.stop ≤ 0

/-- Segments that are not parallel meet where their lines cross, if that is between the ends. -/
theorem meets_of_cross_ne_zero (hc : s.cross t ≠ 0) (h : Straddle s t) : s.Meets t := by
  obtain ⟨h₁, h₂⟩ := h
  rw [orientation_stop, cross_swap] at h₁
  rw [orientation_stop] at h₂
  have hu := ratio_of_mul_nonpos hc (by linarith : _ * (orientation t.start t.stop s.start - _) ≤ 0)
  have hv := ratio_of_mul_nonpos hc
    (by linarith : -orientation s.start s.stop t.start * (-orientation s.start s.stop t.start - _) ≤ 0)
  refine ⟨_, ⟨_, hu.1, hu.2, rfl⟩, ⟨_, hv.1, hv.2, ?_⟩⟩
  ext
  · simp only [along]
    field_simp
    simp only [orientation, cross]
    ring
  · simp only [along]
    field_simp
    simp only [orientation, cross]
    ring

/-- On a common line, segments meet as soon as their boxes overlap: the larger of the two lower
ratios belongs to both of them. -/
theorem meets_of_collinear (h₁ : orientation t.start t.stop s.start = 0)
    (h₂ : orientation s.start s.stop t.start = 0) (h₃ : orientation s.start s.stop t.stop = 0)
    (hbox : BoxesOverlap s t) : s.Meets t := by
  obtain ⟨hx, hy⟩ := hbox
  by_cases hs : s.start = s.stop
  · rw [RangesOverlap, ← hs, min_self, max_self] at hx hy
    have ht : t.Covers s.start := by
      rw [← onSegment_iff_covers, onSegment_iff, withinBox_iff]
      exact ⟨h₁, hx.symm, hy.symm⟩
    exact ⟨s.start, s.covers_start, ht⟩
  · obtain ⟨a, ha⟩ := exists_along_of_orientation_eq_zero hs h₂
    obtain ⟨b, hb⟩ := exists_along_of_orientation_eq_zero hs h₃
    have hratios : 0 ≤ max a b ∧ min a b ≤ 1 := by
      rw [← ha, ← hb] at hx hy
      by_cases hsx : s.start.x = s.stop.x
      · exact ratios_of_rangesOverlap (fun hsy => hs (Point.ext hsx hsy)) hy
      · exact ratios_of_rangesOverlap hsx hx
    obtain ⟨v, hv₀, hv₁, hv⟩ := exists_ratio_of_between (a := a) (b := b) (le_max_right 0 _)
      (max_le hratios.1 min_le_max)
    refine ⟨s.along (max 0 (min a b)), ⟨_, le_max_left _ _, max_le zero_le_one hratios.2, rfl⟩,
      v, hv₀, hv₁, ?_⟩
    rw [along_eq_along ha hb, hv]

/-- Segments that meet straddle each other's lines. -/
theorem straddle_of_meets (h : s.Meets t) : Straddle s t := by
  obtain ⟨p, ⟨u, hu₀, hu₁, rfl⟩, v, hv₀, hv₁, hv⟩ := h
  obtain ⟨h₁, h₂⟩ := orientation_of_along_eq hv.symm
  have hsq := mul_self_nonneg (s.cross t)
  constructor
  · rw [orientation_stop, cross_swap, h₁]
    have := mul_nonneg (mul_nonneg hu₀ (sub_nonneg.mpr hu₁)) hsq
    linarith
  · rw [orientation_stop, h₂]
    have := mul_nonneg (mul_nonneg hv₀ (sub_nonneg.mpr hv₁)) hsq
    linarith

/-- The boxes of segments that meet overlap. -/
theorem boxesOverlap_of_meets (h : s.Meets t) : BoxesOverlap s t := by
  obtain ⟨p, ⟨u, hu₀, hu₁, rfl⟩, v, hv₀, hv₁, hv⟩ := h
  have hsx := between_of_ratio s.start.x s.stop.x hu₀ hu₁
  have hsy := between_of_ratio s.start.y s.stop.y hu₀ hu₁
  have htx := between_of_ratio t.start.x t.stop.x hv₀ hv₁
  have hty := between_of_ratio t.start.y t.stop.y hv₀ hv₁
  have hvx : t.start.x + v * (t.stop.x - t.start.x) = s.start.x + u * (s.stop.x - s.start.x) :=
    congrArg Point.x hv
  have hvy : t.start.y + v * (t.stop.y - t.start.y) = s.start.y + u * (s.stop.y - s.start.y) :=
    congrArg Point.y hv
  rw [hvx] at htx
  rw [hvy] at hty
  exact ⟨⟨hsx.1.trans htx.2, htx.1.trans hsx.2⟩, hsy.1.trans hty.2, hty.1.trans hsy.2⟩

/-- Segments meet exactly if they straddle each other and their boxes overlap. The boxes matter only
on a common line. -/
theorem meets_iff_straddle : s.Meets t ↔ Straddle s t ∧ BoxesOverlap s t := by
  constructor
  · intro h
    exact ⟨straddle_of_meets h, boxesOverlap_of_meets h⟩
  · rintro ⟨hstraddle, hbox⟩
    by_cases hc : s.cross t = 0
    · obtain ⟨h₁, h₂⟩ := hstraddle
      rw [orientation_stop, cross_swap, hc, neg_zero, add_zero] at h₁
      rw [orientation_stop, hc, add_zero] at h₂
      have hs := mul_self_eq_zero.mp (le_antisymm h₁ (mul_self_nonneg _))
      have ht := mul_self_eq_zero.mp (le_antisymm h₂ (mul_self_nonneg _))
      exact meets_of_collinear hs ht (by rw [orientation_stop, ht, hc, add_zero]) hbox
    · exact meets_of_cross_ne_zero hc hstraddle

theorem opposite_iff {a b : ℚ} : opposite a b = true ↔ (0 < a ∧ b < 0) ∨ (a < 0 ∧ 0 < b) := by
  simp only [opposite, Bool.or_eq_true, Bool.and_eq_true, positive_exact, negative_exact]

/-- Signs are opposite if the product is negative. -/
theorem opposite_iff_mul_neg {a b : ℚ} : opposite a b = true ↔ a * b < 0 := by
  rw [opposite_iff, mul_neg_iff]

/-- On a common line, one of two segments that meet has an end on the other. If both ends of the
second lie off the first, they enclose it. -/
theorem end_covered_of_cross_eq_zero (hc : s.cross t = 0) (h : s.Meets t) :
    t.Covers s.start ∨ s.Covers t.start ∨ s.Covers t.stop := by
  obtain ⟨p, ⟨u, hu₀, hu₁, rfl⟩, v, hv₀, hv₁, hv⟩ := h
  by_cases hs : s.start = s.stop
  · have hp : s.along u = s.start := by
      ext <;> simp [along, ← hs]
    exact .inl ⟨v, hv₀, hv₁, hv.trans hp⟩
  · have hstart : orientation s.start s.stop t.start = 0 := by
      rw [(orientation_of_along_eq hv.symm).2, hc, mul_zero, neg_zero]
    have hstop : orientation s.start s.stop t.stop = 0 := by
      rw [orientation_stop, hstart, hc, add_zero]
    obtain ⟨a, ha⟩ := exists_along_of_orientation_eq_zero hs hstart
    obtain ⟨b, hb⟩ := exists_along_of_orientation_eq_zero hs hstop
    by_cases hain : 0 ≤ a ∧ a ≤ 1
    · exact .inr (.inl ⟨a, hain.1, hain.2, ha⟩)
    by_cases hbin : 0 ≤ b ∧ b ≤ 1
    · exact .inr (.inr ⟨b, hbin.1, hbin.2, hb⟩)
    have hu : a + v * (b - a) = u := along_injective hs ((along_eq_along ha hb v).symm.trans hv)
    have hbetween := between_of_ratio a b hv₀ hv₁
    rw [hu] at hbetween
    have hmin : min a b ≤ 0 := by
      by_contra hpos
      rw [not_le, lt_min_iff] at hpos
      rcases min_le_iff.mp (hbetween.1.trans hu₁) with h | h
      · exact hain ⟨hpos.1.le, h⟩
      · exact hbin ⟨hpos.2.le, h⟩
    obtain ⟨w, hw₀, hw₁, hw⟩ := exists_ratio_of_between hmin (hu₀.trans hbetween.2)
    exact .inl ⟨w, hw₀, hw₁, by rw [along_eq_along ha hb, hw, along_zero]⟩

/-- Segments that share a point inside both and are not parallel cross there. -/
theorem crossesProperly_of_inside (hc : s.cross t ≠ 0) (hu₀ : 0 < u) (hu₁ : u < 1) (hv₀ : 0 < v)
    (hv₁ : v < 1) (h : s.along u = t.along v) : crossesProperly s t = true := by
  obtain ⟨hs, ht⟩ := orientation_of_along_eq h
  have hsq : 0 < s.cross t * s.cross t := mul_self_pos.mpr hc
  simp only [crossesProperly, Bool.and_eq_true, opposite_iff_mul_neg]
  constructor
  · rw [orientation_stop, cross_swap, hs]
    have := mul_pos (mul_pos hu₀ (sub_pos.mpr hu₁)) hsq
    linarith
  · rw [orientation_stop, ht]
    have := mul_pos (mul_pos hv₀ (sub_pos.mpr hv₁)) hsq
    linarith

/-- Segments that cross properly are not parallel. -/
theorem cross_ne_zero_of_crossesProperly (h : crossesProperly s t = true) : s.cross t ≠ 0 := by
  simp only [crossesProperly, Bool.and_eq_true, opposite_iff_mul_neg] at h
  intro hc
  rw [orientation_stop s t, hc, add_zero] at h
  exact absurd h.2 (mul_self_nonneg _).not_gt

/-- Segments that cross properly straddle each other's lines. -/
theorem straddle_of_crossesProperly (h : crossesProperly s t = true) : Straddle s t := by
  simp only [crossesProperly, Bool.and_eq_true, opposite_iff_mul_neg] at h
  exact ⟨h.1.le, h.2.le⟩

/-- Segments intersect if they cross properly or one covers an end of the other. -/
theorem segmentsIntersect_iff : segmentsIntersect s t = true ↔
    crossesProperly s t = true ∨ t.Covers s.start ∨ t.Covers s.stop ∨ s.Covers t.start ∨
      s.Covers t.stop := by
  simp only [segmentsIntersect, Bool.or_eq_true, onSegment_iff_covers, or_assoc]

/-- Segments meet exactly if they cross inside both, or one has an end on the other. -/
theorem segmentsIntersect_iff_meets : segmentsIntersect s t = true ↔ s.Meets t := by
  rw [segmentsIntersect_iff]
  constructor
  · rintro (h | h | h | h | h)
    · exact meets_of_cross_ne_zero (cross_ne_zero_of_crossesProperly h) (straddle_of_crossesProperly h)
    · exact ⟨_, s.covers_start, h⟩
    · exact ⟨_, s.covers_stop, h⟩
    · exact ⟨_, h, t.covers_start⟩
    · exact ⟨_, h, t.covers_stop⟩
  · intro h
    by_cases hc : s.cross t = 0
    · rcases end_covered_of_cross_eq_zero hc h with h | h | h
      · exact .inr (.inl h)
      · exact .inr (.inr (.inr (.inl h)))
      · exact .inr (.inr (.inr (.inr h)))
    · obtain ⟨p, ⟨u, hu₀, hu₁, hu⟩, v, hv₀, hv₁, hv⟩ := h
      rcases hu₀.eq_or_lt with rfl | hu₀
      · exact .inr (.inl ⟨v, hv₀, hv₁, by rw [hv, ← hu, along_zero]⟩)
      rcases hu₁.eq_or_lt with rfl | hu₁
      · exact .inr (.inr (.inl ⟨v, hv₀, hv₁, by rw [hv, ← hu, along_one]⟩))
      rcases hv₀.eq_or_lt with rfl | hv₀
      · exact .inr (.inr (.inr (.inl ⟨u, hu₀.le, hu₁.le, by rw [hu, ← hv, along_zero]⟩)))
      rcases hv₁.eq_or_lt with rfl | hv₁
      · exact .inr (.inr (.inr (.inr ⟨u, hu₀.le, hu₁.le, by rw [hu, ← hv, along_one]⟩)))
      exact .inl (crossesProperly_of_inside hc hu₀ hu₁ hv₀ hv₁ (hu.trans hv.symm))

end Meet

end Planar

end SpatialSql
