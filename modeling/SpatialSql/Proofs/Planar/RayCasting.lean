import SpatialSql.Planar.Polygon
import SpatialSql.Proofs.Planar.Crossing
import SpatialSql.Proofs.Planar.Relations
import Mathlib.Algebra.Order.Field.Basic
import Mathlib.Tactic.LinearCombination

/-!
# Ray casting around a closed ring

Whether a ray leaves a point through an odd number of edges is compared for the two ends of
a segment. One edge at a time, the rays of both ends, the two ends of the edge seen across
the segment and a crossing of the two are tied together. Around a closed ring what is seen
of the ends cancels, and the segment changes sides exactly if it crosses an odd number of
edges. So a point keeps its side as long as it is moved without touching an edge.
-/

namespace SpatialSql

section Oddly

variable {β : Type} {f g : β → Bool} {xs : List β}

/-- The test passes for an odd number of items. -/
def oddly (f : β → Bool) (xs : List β) : Bool := xs.foldl (fun odd x => odd != f x) false

/-- Where the count starts changes its parity alone. -/
theorem foldl_bne (f : β → Bool) (xs : List β) (b : Bool) :
    xs.foldl (fun odd x => odd != f x) b = (b != oddly f xs) := by
  unfold oddly
  induction xs generalizing b with
  | nil => simp
  | cons x xs ih => rw [List.foldl_cons, List.foldl_cons, ih, ih (false != f x)]; simp

@[simp] theorem oddly_nil (f : β → Bool) : oddly f [] = false := rfl

@[simp] theorem oddly_cons (f : β → Bool) (x : β) (xs : List β) :
    oddly f (x :: xs) = (f x != oddly f xs) := by
  rw [oddly, List.foldl_cons, foldl_bne, Bool.false_bne]

/-- Two parities differ as often as what is counted differs. -/
theorem oddly_bne (f g : β → Bool) (xs : List β) :
    oddly (fun x => f x != g x) xs = (oddly f xs != oddly g xs) := by
  induction xs with
  | nil => rfl
  | cons x xs ih =>
    rw [oddly_cons, oddly_cons, oddly_cons, ih, Bool.bne_assoc, Bool.bne_assoc]
    exact congrArg (f x != ·) (Bool.xor_left_comm (g x) _ _)

/-- The parity looks only at the members of the list. -/
theorem oddly_congr (h : ∀ x ∈ xs, f x = g x) : oddly f xs = oddly g xs := by
  induction xs with
  | nil => rfl
  | cons x xs ih =>
    rw [oddly_cons, oddly_cons, h x List.mem_cons_self,
      ih fun y hy => h y (List.mem_cons_of_mem x hy)]

/-- What never holds holds an even number of times. -/
theorem oddly_eq_false (h : ∀ x ∈ xs, f x = false) : oddly f xs = false := by
  induction xs with
  | nil => rfl
  | cons x xs ih =>
    rw [oddly_cons, h x List.mem_cons_self, ih fun y hy => h y (List.mem_cons_of_mem x hy)]
    rfl

/-- What changes along the segments of a line changes between its ends. -/
theorem oddly_ends {α : Type} (g : Point α → Bool) (first : Point α) (rest : List (Point α)) :
    oddly (fun e => g e.start != g e.stop) (segmentsOf (first :: rest)) =
      (g first != g ((first :: rest).getLast (List.cons_ne_nil _ _))) := by
  induction rest generalizing first with
  | nil => simp [segmentsOf]
  | cons second rest ih =>
    rw [segmentsOf, oddly_cons, ih, List.getLast_cons_cons]
    simp

end Oddly

namespace Planar

open Segment Coordinate

variable {s e : Segment ℚ} {p : Point ℚ}

section Rays

/-- The ray to the right passes through an edge that climbs past the level of the point on its
right, or falls past it there. -/
theorem rayCrosses_iff : rayCrosses p e = true ↔
    (e.start.y ≤ p.y ∧ p.y < e.stop.y ∧ 0 < orientation e.start e.stop p) ∨
      (e.stop.y ≤ p.y ∧ p.y < e.start.y ∧ orientation e.start e.stop p < 0) := by
  have hray (hy : e.stop.y - e.start.y ≠ 0) :
      p.x < e.start.x + (p.y - e.start.y) * (e.stop.x - e.start.x) / (e.stop.y - e.start.y) ↔
        0 < orientation e.start e.stop p ∧ 0 < e.stop.y - e.start.y ∨
          orientation e.start e.stop p < 0 ∧ e.stop.y - e.start.y < 0 := by
    have hoff : orientation e.start e.stop p / (e.stop.y - e.start.y) = e.start.x +
        (p.y - e.start.y) * (e.stop.x - e.start.x) / (e.stop.y - e.start.y) - p.x := by
      simp only [orientation]
      field_simp
      ring
    rw [← div_pos_iff, hoff, sub_pos]
  rw [rayCrosses, Bool.and_eq_true, bne_iff_ne, ne_eq, Bool.eq_iff_iff, less_exact, less_exact,
    less_exact]
  constructor
  · rintro ⟨hlevel, hx⟩
    have hy : e.stop.y - e.start.y ≠ 0 := by
      intro h
      exact hlevel (by rw [sub_eq_zero.mp h])
    rcases (hray hy).mp hx with ⟨ho, hd⟩ | ⟨ho, hd⟩
    · by_cases hstart : p.y < e.start.y
      · exact absurd (iff_of_true hstart (by linarith)) hlevel
      · have hstop : p.y < e.stop.y := by
          by_contra h
          exact hlevel (iff_of_false hstart h)
        exact .inl ⟨not_lt.mp hstart, hstop, ho⟩
    · by_cases hstop : p.y < e.stop.y
      · exact absurd (iff_of_true (by linarith) hstop) hlevel
      · have hstart : p.y < e.start.y := by
          by_contra h
          exact hlevel (iff_of_false h hstop)
        exact .inr ⟨not_lt.mp hstop, hstart, ho⟩
  · rintro (⟨hstart, hstop, ho⟩ | ⟨hstop, hstart, ho⟩)
    · have hclimb : 0 < e.stop.y - e.start.y := by linarith
      exact ⟨fun h => hstart.not_gt (h.mpr hstop), (hray hclimb.ne').mpr (.inl ⟨ho, hclimb⟩)⟩
    · have hfall : e.stop.y - e.start.y < 0 := by linarith
      exact ⟨fun h => hstop.not_gt (h.mp hstart), (hray hfall.ne).mpr (.inr ⟨ho, hfall⟩)⟩

/-- The ray from the point to the left passes through the segment. Its levels include the upper end,
where those of the ray to the right include the lower one. -/
def rayReaches (s : Segment ℚ) (v : Point ℚ) : Bool :=
  decide ((s.start.y < v.y ∧ v.y ≤ s.stop.y ∧ orientation s.start s.stop v < 0) ∨
    (s.stop.y < v.y ∧ v.y ≤ s.start.y ∧ 0 < orientation s.start s.stop v))

/-- The ray to the right crosses a climbing segment from its left side, the lower level included. -/
theorem rayCrosses_of_climbing (he : e.start.y ≤ e.stop.y) :
    rayCrosses p e = decide (e.start.y ≤ p.y ∧ p.y < e.stop.y ∧ 0 < orientation e.start e.stop p) := by
  rw [Bool.eq_iff_iff, rayCrosses_iff, decide_eq_true_iff, or_iff_left]
  rintro ⟨hstop, hstart, -⟩
  linarith

/-- The ray to the left passes through a climbing segment from its right side, the upper level
included. -/
theorem rayReaches_of_climbing (hs : s.start.y ≤ s.stop.y) :
    rayReaches s p = decide (s.start.y < p.y ∧ p.y ≤ s.stop.y ∧ orientation s.start s.stop p < 0) := by
  rw [Bool.eq_iff_iff, rayReaches, decide_eq_true_iff, decide_eq_true_iff, or_iff_left]
  rintro ⟨hstop, hstart, -⟩
  linarith

/-- Turning round swaps left and right. -/
theorem orientation_swap (a b c : Point ℚ) : orientation b a c = -orientation a b c := by
  simp only [orientation]
  ring

/-- A proper crossing does not depend on the direction of a segment. -/
theorem crossesProperly_reverse (s e : Segment ℚ) :
    crossesProperly s.reverse e = crossesProperly s e := by
  rw [Bool.eq_iff_iff]
  simp only [crossesProperly, Bool.and_eq_true, opposite_iff_mul_neg, reverse,
    orientation_swap s.start s.stop, neg_mul_neg, mul_comm (orientation e.start e.stop s.stop)]

/-- Whether a ray crosses a segment does not depend on its direction. -/
theorem rayCrosses_reverse (p : Point ℚ) (e : Segment ℚ) : rayCrosses p e.reverse = rayCrosses p e := by
  rw [Bool.eq_iff_iff, rayCrosses_iff, rayCrosses_iff, reverse, orientation_swap, neg_pos,
    neg_neg_iff_pos, or_comm]

/-- Nor does it for the ray to the left. -/
theorem rayReaches_reverse (s : Segment ℚ) (p : Point ℚ) : rayReaches s.reverse p = rayReaches s p := by
  rw [Bool.eq_iff_iff, rayReaches, rayReaches, decide_eq_true_iff, decide_eq_true_iff, reverse,
    orientation_swap, neg_pos, neg_neg_iff_pos, or_comm]

end Rays

section Levels

variable {p q u v o₁ o₂ o₃ o₄ : ℚ}

/-- Four numbers weigh four levels so that their sum is zero at any origin, as the orientations of
the ends of two segments do. -/
def Balanced (p q u v o₁ o₂ o₃ o₄ : ℚ) : Prop :=
  ∀ c, o₄ * (p - c) - o₃ * (q - c) + o₂ * (u - c) - o₁ * (v - c) = 0

/-- The orientations of the ends of two segments are balanced by their levels. -/
theorem balanced_orientation (s e : Segment ℚ) :
    Balanced s.start.y s.stop.y e.start.y e.stop.y (orientation s.start s.stop e.start)
      (orientation s.start s.stop e.stop) (orientation e.start e.stop s.start)
      (orientation e.start e.stop s.stop) := by
  intro c
  simp only [orientation]
  ring

/-- The equation is the same for both segments. -/
theorem Balanced.swap (h : Balanced p q u v o₁ o₂ o₃ o₄) : Balanced u v p q o₃ o₄ o₁ o₂ := by
  intro c
  linarith [h c]

/-- The orientations along one segment change as much as those along the other, the other way. -/
theorem Balanced.sub_eq_sub (h : Balanced p q u v o₁ o₂ o₃ o₄) : o₄ - o₃ = o₁ - o₂ := by
  linarith [h 0, h 1]

/-- Where the levels of two climbing segments interleave, one end of each lies between the levels of
the other, and the segments cross exactly if these ends lie on the same side. -/
theorem Balanced.interleaved (h : Balanced p q u v o₁ o₂ o₃ o₄) (hpu : p ≤ u) (huq : u ≤ q)
    (hqv : q ≤ v) (hpq : p < q) (huv : u < v) (h₁ : o₁ ≠ 0) (h₄ : o₄ ≠ 0) :
    (o₃ * o₄ ≤ 0 ∧ o₁ * o₂ ≤ 0) ∧ o₁ ≠ o₂ ↔ 0 < o₁ * o₄ := by
  have hsq₁ : 0 < o₁ * o₁ := mul_self_pos.mpr h₁
  have hsq₄ : 0 < o₄ * o₄ := mul_self_pos.mpr h₄
  constructor
  · rintro ⟨⟨h₃₄, h₁₂⟩, -⟩
    by_contra hside
    have hneg : o₁ * o₄ < 0 := lt_of_le_of_ne (not_lt.mp hside) (mul_ne_zero h₁ h₄)
    have h₁₃ : o₁ * o₃ < 0 := by
      linear_combination hneg + h₁₂ + hsq₁ - o₁ * h.sub_eq_sub
    have hpos : 0 < o₁ * o₁ * (o₃ * o₄) := by
      linear_combination mul_pos_of_neg_of_neg h₁₃ hneg
    exact absurd hpos (mul_nonpos_of_nonneg_of_nonpos hsq₁.le h₃₄).not_gt
  · intro hside
    have hq : o₁ * o₂ * (q - u) < 0 := by
      linear_combination mul_pos hside (sub_pos.mpr hpq) +
        mul_nonneg hsq₁.le (sub_nonneg.mpr hqv) - o₁ * h q
    have hu : o₃ * o₄ * (q - u) < 0 := by
      linear_combination mul_pos hside (sub_pos.mpr huv) +
        mul_nonneg hsq₄.le (sub_nonneg.mpr hpu) - o₄ * h u
    have h₁₂ := neg_of_mul_neg_left hq (sub_nonneg.mpr huq)
    refine ⟨⟨(neg_of_mul_neg_left hu (sub_nonneg.mpr huq)).le, h₁₂.le⟩, ?_⟩
    rintro rfl
    exact absurd h₁₂ hsq₁.not_gt

/-- Where the levels of one segment lie between those of a climbing one, they cross exactly if the
ends of the first lie on different sides of the second. -/
theorem Balanced.nested (h : Balanced p q u v o₁ o₂ o₃ o₄) (hpu : p ≤ u) (huv : u ≤ v) (hvq : v ≤ q)
    (hpq : p < q) (h₁ : o₁ ≠ 0) (h₂ : o₂ ≠ 0) :
    (o₃ * o₄ ≤ 0 ∧ o₁ * o₂ ≤ 0) ∧ o₁ ≠ o₂ ↔ o₁ * o₂ < 0 := by
  constructor
  · rintro ⟨⟨-, h₁₂⟩, -⟩
    exact lt_of_le_of_ne h₁₂ (mul_ne_zero h₁ h₂)
  · intro hside
    refine ⟨⟨?_, hside.le⟩, ?_⟩
    · have h₃ : o₃ * (q - p) = o₂ * (u - p) - o₁ * (v - p) := by linear_combination -h p
      have h₄ : o₄ * (q - p) = o₁ * (q - v) - o₂ * (q - u) := by linear_combination -h q
      have hup := sub_nonneg.mpr hpu
      have hqv := sub_nonneg.mpr hvq
      have hvp := sub_nonneg.mpr (hpu.trans huv)
      have hqu := sub_nonneg.mpr (huv.trans hvq)
      have hmixed : o₁ * o₂ * ((u - p) * (q - v) + (v - p) * (q - u)) ≤ 0 :=
        mul_nonpos_of_nonpos_of_nonneg hside.le
          (add_nonneg (mul_nonneg hup hqv) (mul_nonneg hvp hqu))
      have hprod : o₃ * o₄ * ((q - p) * (q - p)) ≤ 0 := by
        calc o₃ * o₄ * ((q - p) * (q - p)) = o₃ * (q - p) * (o₄ * (q - p)) := by ring
          _ = o₁ * o₂ * ((u - p) * (q - v) + (v - p) * (q - u)) -
              (o₂ * o₂ * ((u - p) * (q - u)) + o₁ * o₁ * ((v - p) * (q - v))) := by
            rw [h₃, h₄]
            ring
          _ ≤ 0 := sub_nonpos_of_le (hmixed.trans
            (add_nonneg (mul_nonneg (mul_self_nonneg o₂) (mul_nonneg hup hqu))
              (mul_nonneg (mul_self_nonneg o₁) (mul_nonneg hvp hqv))))
      exact nonpos_of_mul_nonpos_left hprod (mul_self_pos.mpr (sub_pos.mpr hpq).ne')
    · rintro rfl
      exact absurd hside (mul_self_nonneg o₁).not_gt

/-- What is neither zero nor positive is negative. -/
theorem decide_neg_of_ne_zero (h : o₁ ≠ 0) : decide (o₁ < 0) = !decide (0 < o₁) := by
  rw [← decide_not, Bool.eq_iff_iff, decide_eq_true_iff, decide_eq_true_iff, not_lt]
  exact ⟨le_of_lt, fun hle => lt_of_le_of_ne hle h⟩

/-- A product is negative if the signs of its factors differ. -/
theorem decide_mul_neg (h₁ : o₁ ≠ 0) (h₂ : o₂ ≠ 0) :
    decide (o₁ * o₂ < 0) = (decide (0 < o₁) != decide (0 < o₂)) := by
  rcases lt_or_gt_of_ne h₁ with h₁ | h₁ <;> rcases lt_or_gt_of_ne h₂ with h₂ | h₂
  · simp [(mul_pos_of_neg_of_neg h₁ h₂).not_gt, h₁.not_gt, h₂.not_gt]
  · simp [mul_neg_of_neg_of_pos h₁ h₂, h₁.not_gt, h₂]
  · simp [mul_neg_of_pos_of_neg h₁ h₂, h₁, h₂.not_gt]
  · simp [(mul_pos h₁ h₂).not_gt, h₁, h₂]

/-- A product is positive if the signs of its factors agree. -/
theorem decide_mul_pos (h₁ : o₁ ≠ 0) (h₂ : o₂ ≠ 0) :
    decide (0 < o₁ * o₂) = !(decide (0 < o₁) != decide (0 < o₂)) := by
  rw [← decide_mul_neg h₁ h₂, decide_neg_of_ne_zero (mul_ne_zero h₁ h₂), Bool.not_not]

end Levels

section Sides

/-- No end of one segment lies on the other. -/
structure Apart (s e : Segment ℚ) : Prop where
  start_off : ¬e.Covers s.start
  stop_off : ¬e.Covers s.stop
  off_start : ¬s.Covers e.start
  off_stop : ¬s.Covers e.stop

/-- Segments without a common point have no end on the other one. -/
theorem apart_of_not_meets (h : ¬s.Meets e) : Apart s e where
  start_off hp := h ⟨_, s.covers_start, hp⟩
  stop_off hp := h ⟨_, s.covers_stop, hp⟩
  off_start hp := h ⟨_, hp, e.covers_start⟩
  off_stop hp := h ⟨_, hp, e.covers_stop⟩

/-- Lying apart is symmetric. -/
theorem Apart.swap (h : Apart s e) : Apart e s :=
  ⟨h.off_start, h.off_stop, h.start_off, h.stop_off⟩

/-- Lying apart does not depend on direction. -/
theorem Apart.reverse (h : Apart s e) : Apart s.reverse e where
  start_off := h.stop_off
  stop_off := h.start_off
  off_start hp := h.off_start (covers_reverse.mp hp)
  off_stop hp := h.off_stop (covers_reverse.mp hp)

/-- Segments without an end on each other cross inside both or not at all. -/
theorem Apart.crossesProperly_iff_meets (h : Apart s e) :
    crossesProperly s e = true ↔ s.Meets e := by
  rw [← segmentsIntersect_iff_meets, segmentsIntersect_iff]
  simp only [h.start_off, h.stop_off, h.off_start, h.off_stop, or_false]

/-- A proper crossing is a common point. -/
theorem crossesProperly_eq_false_of_not_meets (h : ¬s.Meets e) : crossesProperly s e = false := by
  rw [← Bool.not_eq_true, (apart_of_not_meets h).crossesProperly_iff_meets]
  exact h

/-- Segments that lie apart cross properly if they straddle each other and are not parallel. -/
theorem Apart.crossesProperly_iff (h : Apart s e) :
    crossesProperly s e = true ↔
      (orientation e.start e.stop s.start * orientation e.start e.stop s.stop ≤ 0 ∧
        orientation s.start s.stop e.start * orientation s.start s.stop e.stop ≤ 0) ∧
        orientation s.start s.stop e.start ≠ orientation s.start s.stop e.stop := by
  have hcross : s.cross e ≠ 0 ↔
      orientation s.start s.stop e.start ≠ orientation s.start s.stop e.stop := by
    rw [orientation_stop, ne_eq, ne_eq, left_eq_add]
  rw [← hcross]
  constructor
  · intro hx
    exact ⟨straddle_of_crossesProperly hx, cross_ne_zero_of_crossesProperly hx⟩
  · rintro ⟨hstraddle, hc⟩
    exact h.crossesProperly_iff_meets.mpr (meets_of_cross_ne_zero hc hstraddle)

/-- A point off a climbing segment but between its levels lies to the left or to the right. -/
theorem orientation_ne_zero_of_level (hp : ¬e.Covers p) (hy : e.start.y < e.stop.y)
    (hstart : e.start.y ≤ p.y) (hstop : p.y ≤ e.stop.y) : orientation e.start e.stop p ≠ 0 := by
  intro ho
  obtain ⟨u, rfl⟩ := exists_along_of_orientation_eq_zero (fun h => hy.ne (congrArg Point.y h)) ho
  have hratio : 0 ≤ max u u ∧ min u u ≤ 1 := by
    apply ratios_of_rangesOverlap hy.ne
    rw [RangesOverlap, max_self, min_self, min_eq_left hy.le, max_eq_right hy.le]
    exact ⟨hstart, hstop⟩
  rw [max_self, min_self] at hratio
  exact hp ⟨u, hratio.1, hratio.2, rfl⟩

/-- Climbing segments one of which starts where the other ends, or higher, do not cross. -/
theorem Apart.not_meets_of_above (h : Apart s e) (hs : s.start.y ≤ s.stop.y)
    (he : e.start.y ≤ e.stop.y) (hlevel : e.stop.y ≤ s.start.y) : ¬s.Meets e := by
  intro hmeet
  have hc : s.cross e ≠ 0 := by
    intro hc
    rcases end_covered_of_cross_eq_zero hc hmeet with hp | hp | hp
    · exact h.start_off hp
    · exact h.off_start hp
    · exact h.off_stop hp
  obtain ⟨p, ⟨l, hl₀, hl₁, hl⟩, m, hm₀, hm₁, hm⟩ := hmeet
  have hy : s.start.y + l * (s.stop.y - s.start.y) = e.start.y + m * (e.stop.y - e.start.y) :=
    congrArg Point.y (hl.trans hm.symm)
  have hlpos : 0 < l := by
    refine lt_of_le_of_ne hl₀ fun hzero => h.start_off ⟨m, hm₀, hm₁, ?_⟩
    rw [hm, ← hl, ← hzero, along_zero]
  have hmlt : m < 1 := by
    refine lt_of_le_of_ne hm₁ fun hone => h.off_stop ⟨l, hl₀, hl₁, ?_⟩
    rw [hl, ← hm, hone, along_one]
  have hsflat : s.stop.y - s.start.y = 0 := by nlinarith
  have heflat : e.stop.y - e.start.y = 0 := by nlinarith
  exact hc (by rw [cross, hsflat, heflat, mul_zero, zero_mul, sub_zero])

/-- Seen from a segment that climbs, the rays of its ends through a climbing edge, the ends of the
edge and a crossing of the two balance out. The cases are the ways in which their levels overlap. -/
theorem Apart.rays_of_climbing (h : Apart s e) (hs : s.start.y ≤ s.stop.y)
    (he : e.start.y ≤ e.stop.y) :
    (rayCrosses s.start e != rayCrosses s.stop e) =
      ((rayReaches s e.start != rayReaches s e.stop) != crossesProperly s e) := by
  rw [rayCrosses_of_climbing he, rayCrosses_of_climbing he, rayReaches_of_climbing hs,
    rayReaches_of_climbing hs]
  have hbal := balanced_orientation s e
  rcases lt_or_ge s.stop.y e.start.y with hqu | huq
  · have hcross : crossesProperly s e = false := by
      apply crossesProperly_eq_false_of_not_meets
      intro hmeet
      have hlevel := (boxesOverlap_of_meets hmeet).2.2
      rw [min_eq_left he, max_eq_right hs] at hlevel
      exact hqu.not_ge hlevel
    simp [hcross, hqu.not_ge, (hs.trans_lt hqu).not_ge, (hqu.trans_le he).not_ge]
  rcases le_or_gt e.stop.y s.start.y with hvp | hpv
  · have hcross := crossesProperly_eq_false_of_not_meets (h.not_meets_of_above hs he hvp)
    simp [hcross, hvp.not_gt, (hvp.trans hs).not_gt, (he.trans hvp).not_gt]
  rcases lt_or_ge s.start.y e.start.y with hpu | hup <;>
    rcases lt_or_ge s.stop.y e.stop.y with hqv | hvq
  · have h₁ := orientation_ne_zero_of_level h.off_start (hpu.trans_le huq) hpu.le huq
    have h₄ := orientation_ne_zero_of_level h.stop_off (huq.trans_lt hqv) huq hqv.le
    have hcross : crossesProperly s e = decide (0 < orientation s.start s.stop e.start *
        orientation e.start e.stop s.stop) := by
      rw [Bool.eq_iff_iff, h.crossesProperly_iff, decide_eq_true_iff]
      exact hbal.interleaved hpu.le huq hqv.le (hpu.trans_le huq) (huq.trans_lt hqv) h₁ h₄
    rw [hcross, decide_mul_pos h₁ h₄]
    simp [hpu, hpu.not_ge, huq, hqv, hqv.not_ge, decide_neg_of_ne_zero h₁]
  · have h₁ := orientation_ne_zero_of_level h.off_start (hpu.trans_le huq) hpu.le huq
    have h₂ := orientation_ne_zero_of_level h.off_stop (hpu.trans_le huq) hpv.le hvq
    have hcross : crossesProperly s e = decide (orientation s.start s.stop e.start *
        orientation s.start s.stop e.stop < 0) := by
      rw [Bool.eq_iff_iff, h.crossesProperly_iff, decide_eq_true_iff]
      exact hbal.nested hpu.le he hvq (hpu.trans_le huq) h₁ h₂
    rw [hcross, decide_mul_neg h₁ h₂]
    simp [hpu, hpu.not_ge, huq, hpv, hvq, hvq.not_gt, decide_neg_of_ne_zero h₁,
      decide_neg_of_ne_zero h₂]
  · have h₃ := orientation_ne_zero_of_level h.start_off (hup.trans_lt hpv) hup hpv.le
    have h₄ := orientation_ne_zero_of_level h.stop_off (hup.trans_lt hpv) huq hqv.le
    have hcross : crossesProperly s e = decide (orientation e.start e.stop s.start *
        orientation e.start e.stop s.stop < 0) := by
      rw [crossesProperly_comm, Bool.eq_iff_iff, h.swap.crossesProperly_iff, decide_eq_true_iff]
      exact hbal.swap.nested hup hs hqv.le (hup.trans_lt hpv) h₃ h₄
    rw [hcross, decide_mul_neg h₃ h₄]
    simp [hup, hup.not_gt, hpv, huq, hqv, hqv.not_ge]
  · have h₂ := orientation_ne_zero_of_level h.off_stop (hpv.trans_le hvq) hpv.le hvq
    have h₃ := orientation_ne_zero_of_level h.start_off (hup.trans_lt hpv) hup hpv.le
    have hcross : crossesProperly s e = decide (0 < orientation s.start s.stop e.stop *
        orientation e.start e.stop s.start) := by
      rw [crossesProperly_comm, Bool.eq_iff_iff, h.swap.crossesProperly_iff, decide_eq_true_iff,
        mul_comm (orientation s.start s.stop e.stop)]
      exact hbal.swap.interleaved hup hpv.le hvq (hup.trans_lt hpv) (hpv.trans_le hvq) h₃ h₂
    rw [hcross, decide_mul_pos h₂ h₃]
    simp [hup, hup.not_gt, hpv, hvq, hvq.not_gt, decide_neg_of_ne_zero h₂]

/-- The rays of the ends of a segment through an edge, the ends of the edge and a crossing of the two
balance out, whichever way they run. -/
theorem Apart.rays (h : Apart s e) :
    (rayCrosses s.start e != rayCrosses s.stop e) =
      ((rayReaches s e.start != rayReaches s e.stop) != crossesProperly s e) := by
  -- A falling segment or edge is walked from its other end, which swaps its ends in the equation.
  have hedge {s : Segment ℚ} (h : Apart s e) (hs : s.start.y ≤ s.stop.y) :
      (rayCrosses s.start e != rayCrosses s.stop e) =
        ((rayReaches s e.start != rayReaches s e.stop) != crossesProperly s e) := by
    rcases le_total e.start.y e.stop.y with he | he
    · exact h.rays_of_climbing hs he
    · have hrev := h.swap.reverse.swap.rays_of_climbing hs he
      rw [crossesProperly_comm s, crossesProperly_reverse, crossesProperly_comm e,
        rayCrosses_reverse, rayCrosses_reverse] at hrev
      rw [hrev]
      exact congrArg (· != crossesProperly s e) (Bool.xor_comm _ _)
  rcases le_total s.start.y s.stop.y with hs | hs
  · exact hedge h hs
  · have hrev := hedge h.reverse hs
    rw [crossesProperly_reverse, rayReaches_reverse, rayReaches_reverse] at hrev
    rw [← hrev]
    exact Bool.xor_comm _ _

end Sides

end Planar

/-- The ring ends where it starts. -/
def Polygon.Closed {α : Type} (a : Polygon α) : Prop := a.ring.head? = a.ring.getLast?

/-- Exact coordinates that compare equal are equal. -/
theorem Point.eq_of_beq {p q : Point ℚ} (h : (p == q) = true) : p = q := by
  have hxy : (p.x == q.x && p.y == q.y) = true := h
  rw [Bool.and_eq_true, beq_iff_eq, beq_iff_eq] at hxy
  exact Point.ext hxy.1 hxy.2

instance : LawfulBEq (Point ℚ) where
  eq_of_beq := Point.eq_of_beq
  rfl {p} := by
    change (p.x == p.x && p.y == p.y) = true
    rw [beq_self_eq_true, beq_self_eq_true, Bool.and_self]

/-- A polygon that is made of points has a closed ring. -/
theorem Polygon.closed_of_ofPoints? {points : List (Point ℚ)} {a : Polygon ℚ}
    (h : Polygon.ofPoints? points = some a) : a.Closed := by
  unfold Polygon.ofPoints? at h
  split at h
  · contradiction
  · obtain rfl := Option.some.inj h
    cases points with
    | nil => rfl
    | cons first rest =>
      simp only [Polygon.Closed, Polygon.closeRing]
      split
      · rename_i hclosed
        rw [List.getLast?_cons, Point.eq_of_beq hclosed, List.head?_cons]
      · rw [List.getLast?_concat, List.cons_append, List.head?_cons]

/-- What changes along the edges of a closed ring changes back. -/
theorem Polygon.Closed.oddly_ends {α : Type} {a : Polygon α} (h : a.Closed) (g : Point α → Bool) :
    oddly (fun e => g e.start != g e.stop) a.edges = false := by
  obtain ⟨ring⟩ := a
  cases ring with
  | nil => rfl
  | cons first rest =>
    have hlast : (first :: rest).getLast (List.cons_ne_nil _ _) = first := by
      have h' : some first = (first :: rest).getLast? := h
      rw [List.getLast?_eq_some_getLast (List.cons_ne_nil _ _)] at h'
      exact (Option.some.inj h').symm
    rw [Polygon.edges, SpatialSql.oddly_ends, hlast, bne_self_eq_false]

/-- The ends of an edge are vertices. -/
theorem Polygon.mem_ring_of_mem_edges {α : Type} {a : Polygon α} {e : Segment α} (h : e ∈ a.edges) :
    e.start ∈ a.ring ∧ e.stop ∈ a.ring := by
  obtain ⟨ring⟩ := a
  change e ∈ segmentsOf ring at h
  change e.start ∈ ring ∧ e.stop ∈ ring
  induction ring with
  | nil => cases h
  | cons first rest ih =>
    cases rest with
    | nil => cases h
    | cons second rest =>
      rcases List.mem_cons.mp h with rfl | h
      · exact ⟨List.mem_cons_self, List.mem_cons_of_mem _ List.mem_cons_self⟩
      · exact (ih h).imp (List.mem_cons_of_mem first) (List.mem_cons_of_mem first)

namespace Planar

open Segment Coordinate

variable {a : Polygon ℚ} {s : Segment ℚ} {p : Point ℚ}

/-- The ray from the point to the right passes through an odd number of edges. -/
def inside (a : Polygon ℚ) (p : Point ℚ) : Bool := oddly (rayCrosses p) a.edges

/-- A segment whose ends lie off all edges, with no vertex on it, changes sides exactly if it crosses
an odd number of edges. -/
theorem inside_bne_inside (hclosed : a.Closed) (h : ∀ e ∈ a.edges, Apart s e) :
    (inside a s.start != inside a s.stop) = oddly (crossesProperly s) a.edges := by
  have hrays : ∀ e ∈ a.edges, (rayCrosses s.start e != rayCrosses s.stop e) =
      ((rayReaches s e.start != rayReaches s e.stop) != crossesProperly s e) :=
    fun e he => (h e he).rays
  rw [inside, inside, ← oddly_bne, oddly_congr hrays, oddly_bne, hclosed.oddly_ends, Bool.false_bne]

/-- A point keeps its side when it is moved without touching an edge. -/
theorem inside_eq_of_not_meets (hclosed : a.Closed) (h : ∀ e ∈ a.edges, ¬s.Meets e) :
    inside a s.start = inside a s.stop := by
  have hapart : ∀ e ∈ a.edges, Apart s e := fun e he => apart_of_not_meets (h e he)
  have hcross : oddly (crossesProperly s) a.edges = false :=
    oddly_eq_false fun e he => crossesProperly_eq_false_of_not_meets (h e he)
  have hbne := inside_bne_inside hclosed hapart
  rwa [hcross, bne_eq_false_iff_eq] at hbne

/-- No ray to the right meets a ring from beyond its rightmost vertex. -/
theorem inside_eq_false_of_beyond (h : ∀ v ∈ a.ring, v.x ≤ p.x) : inside a p = false := by
  apply oddly_eq_false
  intro e he
  obtain ⟨hstart, hstop⟩ := Polygon.mem_ring_of_mem_edges he
  have hx₁ := h _ hstart
  have hx₂ := h _ hstop
  rw [← Bool.not_eq_true, rayCrosses_iff]
  simp only [orientation]
  rintro (⟨hy₁, hy₂, ho⟩ | ⟨hy₁, hy₂, ho⟩)
  · nlinarith
  · nlinarith

/-- A point is on the boundary if an edge covers it. -/
theorem onBoundary_iff : onBoundary a p = true ↔ ∃ e ∈ a.edges, e.Covers p := by
  simp only [onBoundary, List.any_eq_true, onSegment_iff_covers]

/-- A point is inside if it is off the boundary and its ray crosses an odd number of edges. -/
theorem containsPoint_iff :
    containsPoint a p = true ↔ (∀ e ∈ a.edges, ¬e.Covers p) ∧ inside a p = true := by
  change (!onBoundary a p && inside a p) = true ↔ _
  rw [Bool.and_eq_true, Bool.not_eq_true', ← Bool.not_eq_true, onBoundary_iff]
  simp only [not_exists, not_and]

/-- A point is covered if it is on the boundary or its ray crosses an odd number of edges. -/
theorem coversPoint_iff :
    coversPoint a p = true ↔ (∃ e ∈ a.edges, e.Covers p) ∨ inside a p = true := by
  have hcovers : coversPoint a p = (onBoundary a p || inside a p) := by
    change (onBoundary a p || (!onBoundary a p && inside a p)) = _
    cases onBoundary a p <;> simp
  rw [hcovers, Bool.or_eq_true, onBoundary_iff]

end Planar

end SpatialSql
