import SpatialSql.Proofs.Planar.Segment

/-!
# Where two segments meet

With exact coordinates, the test by sides and ends tells whether two segments have a point
in common, and the quotient computed from the first segment alone is the one point of
segments that are not parallel. That point is told apart by lying on both segments, which
says nothing about their order or direction.
-/

namespace SpatialSql

namespace Segment

variable {s : Segment ℚ} {p : Point ℚ}

/-- The same segment walked from its other end. -/
def reverse (s : Segment ℚ) : Segment ℚ := ⟨s.stop, s.start⟩

/-- Ratios along a reversed segment count from the other end. -/
theorem along_reverse (s : Segment ℚ) (u : ℚ) : s.reverse.along u = s.along (1 - u) := by
  ext <;> simp only [along, reverse] <;> ring

theorem Covers.reverse (h : s.Covers p) : s.reverse.Covers p := by
  obtain ⟨u, h₀, h₁, rfl⟩ := h
  refine ⟨1 - u, sub_nonneg.mpr h₁, sub_le_self 1 h₀, ?_⟩
  rw [along_reverse, sub_sub_cancel]

/-- A segment and its reverse cover the same points. -/
theorem covers_reverse : s.reverse.Covers p ↔ s.Covers p :=
  ⟨Covers.reverse, Covers.reverse⟩

theorem reverse_cross (s t : Segment ℚ) : s.reverse.cross t = -s.cross t := by
  simp only [cross, reverse]
  ring

end Segment

namespace Planar

open Segment Coordinate

variable {s t : Segment ℚ} {p q : Point ℚ}

/-- Segments meet exactly if the same point divides both in ratios between zero and one. -/
theorem meets_iff_along_eq_along :
    s.Meets t ↔ ∃ l m : ℚ, (0 ≤ l ∧ l ≤ 1) ∧ (0 ≤ m ∧ m ≤ 1) ∧ s.along l = t.along m := by
  constructor
  · rintro ⟨p, ⟨l, hl₀, hl₁, hl⟩, m, hm₀, hm₁, hm⟩
    exact ⟨l, m, ⟨hl₀, hl₁⟩, ⟨hm₀, hm₁⟩, hl.trans hm.symm⟩
  · rintro ⟨l, m, ⟨hl₀, hl₁⟩, ⟨hm₀, hm₁⟩, h⟩
    exact ⟨s.along l, ⟨l, hl₀, hl₁, rfl⟩, m, hm₀, hm₁, h.symm⟩

/-- The test for two segments tells whether they have a point in common. They may be parallel, lie
on one line, touch in an end or have no length. -/
theorem segmentsIntersect_iff_common_point (s t : Segment ℚ) :
    segmentsIntersect s t = true ↔
      ∃ l m : ℚ, (0 ≤ l ∧ l ≤ 1) ∧ (0 ≤ m ∧ m ≤ 1) ∧ s.along l = t.along m :=
  segmentsIntersect_iff_meets.trans meets_iff_along_eq_along

/-- Along a segment, the ratio of a point that lies on a second one is determined by how far the
start is off the line of the second. -/
theorem along_ratio_of_covers (hc : s.cross t ≠ 0) (hs : s.Covers p) (ht : t.Covers p) :
    s.along (orientation t.start t.stop s.start / s.cross t) = p := by
  obtain ⟨u, -, -, rfl⟩ := hs
  obtain ⟨v, -, -, hv⟩ := ht
  rw [(orientation_of_along_eq hv.symm).1, mul_div_cancel_right₀ u hc]

/-- Segments that are not parallel have at most one point in common. -/
theorem eq_of_covers (hc : s.cross t ≠ 0) (hp : s.Covers p) (hp' : t.Covers p) (hq : s.Covers q)
    (hq' : t.Covers q) : p = q :=
  (along_ratio_of_covers hc hp hp').symm.trans (along_ratio_of_covers hc hq hq')

/-- The quotient is formed from the offset of the second start, which is how far the first start
is off the second line. -/
theorem segmentIntersection?_eq (s t : Segment ℚ) :
    segmentIntersection? s t =
      if (s.cross t == 0) || !segmentsIntersect s t then none
      else some (s.along (orientation t.start t.stop s.start / s.cross t)) := by
  have hoffset : (t.start.x - s.start.x) * (t.stop.y - t.start.y) -
      (t.start.y - s.start.y) * (t.stop.x - t.start.x) = orientation t.start t.stop s.start := by
    simp only [orientation]
    ring
  simp only [segmentIntersection?, hoffset, zero_exact]
  rfl

/-- The crossing point is the point that lies on both segments, provided they are not parallel. -/
theorem segmentIntersection?_eq_some_iff :
    segmentIntersection? s t = some p ↔ s.cross t ≠ 0 ∧ s.Covers p ∧ t.Covers p := by
  rw [segmentIntersection?_eq]
  constructor
  · intro h
    split at h
    · contradiction
    · rename_i hmeet
      simp only [Bool.or_eq_true, beq_iff_eq, Bool.not_eq_true', not_or, Bool.not_eq_false,
        segmentsIntersect_iff_meets] at hmeet
      obtain ⟨hc, q, hs, ht⟩ := hmeet
      obtain rfl := Option.some.inj h
      rw [along_ratio_of_covers hc hs ht]
      exact ⟨hc, hs, ht⟩
  · rintro ⟨hc, hs, ht⟩
    have hmeet : segmentsIntersect s t = true := segmentsIntersect_iff_meets.mpr ⟨p, hs, ht⟩
    rw [if_neg (by simp [hc, hmeet]), along_ratio_of_covers hc hs ht]

/-- The crossing point does not depend on the order of the segments. -/
theorem segmentIntersection?_swap (s t : Segment ℚ) :
    segmentIntersection? t s = segmentIntersection? s t := by
  ext p
  rw [segmentIntersection?_eq_some_iff, segmentIntersection?_eq_some_iff, cross_swap s t, neg_ne_zero,
    and_comm (a := t.Covers p)]

/-- Nor on the direction of one of them. -/
theorem segmentIntersection?_reverse (s t : Segment ℚ) :
    segmentIntersection? s.reverse t = segmentIntersection? s t := by
  ext p
  rw [segmentIntersection?_eq_some_iff, segmentIntersection?_eq_some_iff, reverse_cross, neg_ne_zero,
    covers_reverse]

/-- There is a crossing point exactly for segments that meet and are not parallel. -/
theorem exists_segmentIntersection?_iff :
    (∃ p, segmentIntersection? s t = some p) ↔ s.cross t ≠ 0 ∧ s.Meets t := by
  simp only [segmentIntersection?_eq_some_iff, exists_and_left]
  rfl

/-- There is a crossing point exactly if the segments are not parallel and share a point, and it is
then the only point on both. Neither the order of the segments nor their directions matter. -/
theorem segmentIntersection?_characterised (s t : Segment ℚ) :
    ((∃ p, segmentIntersection? s t = some p) ↔
      s.cross t ≠ 0 ∧ ∃ l m : ℚ, (0 ≤ l ∧ l ≤ 1) ∧ (0 ≤ m ∧ m ≤ 1) ∧ s.along l = t.along m) ∧
    (∀ p, segmentIntersection? s t = some p →
      (onSegment s p = true ∧ onSegment t p = true) ∧
        ∀ q, onSegment s q = true → onSegment t q = true → q = p) ∧
    segmentIntersection? t s = segmentIntersection? s t ∧
    segmentIntersection? s.reverse t = segmentIntersection? s t ∧
    segmentIntersection? s t.reverse = segmentIntersection? s t := by
  refine ⟨?_, ?_, segmentIntersection?_swap s t, segmentIntersection?_reverse s t, ?_⟩
  · rw [exists_segmentIntersection?_iff, meets_iff_along_eq_along]
  · intro p hp
    obtain ⟨hc, hs, ht⟩ := segmentIntersection?_eq_some_iff.mp hp
    simp only [onSegment_iff_covers]
    exact ⟨⟨hs, ht⟩, fun q hqs hqt => eq_of_covers hc hqs hqt hs ht⟩
  · rw [segmentIntersection?_swap, segmentIntersection?_reverse, segmentIntersection?_swap]

/-- A segment that climbs from the origin. -/
def climbing : Segment ℚ := ⟨⟨0, 0⟩, ⟨3, 3⟩⟩

/-- A segment that falls across the climbing one. -/
def falling : Segment ℚ := ⟨⟨0, 2⟩, ⟨2, 0⟩⟩

/-- The two cross in a single point. -/
theorem segmentIntersection?_characterised_diagonals :
    segmentIntersection? climbing falling = some ⟨1, 1⟩ ∧
      (onSegment climbing ⟨1, 1⟩ = true ∧ onSegment falling ⟨1, 1⟩ = true) ∧
      ∀ q, onSegment climbing q = true → onSegment falling q = true → q = ⟨1, 1⟩ := by
  have hcross : segmentIntersection? climbing falling = some ⟨1, 1⟩ := by decide +kernel
  exact ⟨hcross, (segmentIntersection?_characterised climbing falling).2.1 _ hcross⟩

end Planar

end SpatialSql
