import SpatialSql.Proofs.Planar.RayCasting
import Mathlib.Analysis.Normed.Field.Lemmas
import Mathlib.Topology.Order.OrderClosed

/-!
# Segments moved a little

A point or a segment is moved along the direction of another segment. How two segments lie
to each other is decided by strict inequalities as long as no end lies on the other segment,
and these survive a small move. So does a crossing inside both. A segment that is moved off
its own line leaves the edges on that line behind.
-/

namespace SpatialSql

open Filter Topology

/-- The point moved by a multiple of the direction of a segment. -/
def Point.shift (p : Point ℚ) (r : Segment ℚ) (ε : ℚ) : Point ℚ :=
  ⟨p.x + ε * (r.stop.x - r.start.x), p.y + ε * (r.stop.y - r.start.y)⟩

namespace Segment

/-- The segment moved by a multiple of the direction of another one. -/
def shift (s r : Segment ℚ) (ε : ℚ) : Segment ℚ := ⟨s.start.shift r ε, s.stop.shift r ε⟩

/-- A shift along a segment moves its points along it. -/
theorem along_shift (r : Segment ℚ) (t ε : ℚ) : (r.along t).shift r ε = r.along (t + ε) := by
  ext <;> simp only [along, Point.shift] <;> ring

theorem shift_zero (s r : Segment ℚ) : s.shift r 0 = s := by
  simp [shift, Point.shift]

/-- A shifted segment has the shifted points. -/
theorem along_of_shift (s r : Segment ℚ) (u ε : ℚ) :
    (s.shift r ε).along u = (s.along u).shift r ε := by
  ext <;> simp only [along, shift, Point.shift] <;> ring

end Segment

namespace Planar

open Segment

variable {s e f g r : Segment ℚ} {p : Point ℚ} {ε : ℚ}

/-- Moving a point changes its orientation evenly. -/
theorem orientation_shift (e r : Segment ℚ) (p : Point ℚ) (ε : ℚ) :
    orientation e.start e.stop (p.shift r ε) = orientation e.start e.stop p + ε * e.cross r := by
  simp only [orientation, Point.shift, cross]
  ring

section Small

/-- A segment whose ends depend continuously on something meets an edge for a closed set of it. -/
theorem isClosed_meets {α : Type} [TopologicalSpace α] {s : α → Segment ℚ}
    (h₁ : Continuous fun z => (s z).start.x) (h₂ : Continuous fun z => (s z).start.y)
    (h₃ : Continuous fun z => (s z).stop.x) (h₄ : Continuous fun z => (s z).stop.y)
    (e : Segment ℚ) : IsClosed {z | (s z).Meets e} := by
  simp only [meets_iff_straddle, Straddle, BoxesOverlap, RangesOverlap, orientation, Set.ofPred_and]
  refine ((isClosed_le ?_ ?_).inter (isClosed_le ?_ ?_)).inter
    (((isClosed_le ?_ ?_).inter (isClosed_le ?_ ?_)).inter
      ((isClosed_le ?_ ?_).inter (isClosed_le ?_ ?_))) <;> fun_prop

/-- The moves that let a segment cross an edge inside both form an open set. -/
theorem isOpen_crossesProperly (s e r : Segment ℚ) :
    IsOpen {ε | crossesProperly (s.shift r ε) e = true} := by
  simp only [crossesProperly, Bool.and_eq_true, opposite_iff_mul_neg, orientation, shift, Point.shift,
    Set.ofPred_and]
  refine (isOpen_lt ?_ ?_).inter (isOpen_lt ?_ ?_) <;> fun_prop

/-- Segments that do not meet stay so under a small shift. -/
theorem eventually_not_meets (h : ¬s.Meets e) (r : Segment ℚ) :
    ∀ᶠ ε in 𝓝 (0 : ℚ), ¬(s.shift r ε).Meets e := by
  have hclosed : IsClosed {ε | (s.shift r ε).Meets e} := by
    apply isClosed_meets <;> simp only [shift, Point.shift] <;> fun_prop
  apply hclosed.isOpen_compl.mem_nhds
  simpa [shift_zero] using h

/-- Segments that cross properly stay so under a small shift. -/
theorem eventually_crossesProperly (h : crossesProperly s e = true) (r : Segment ℚ) :
    ∀ᶠ ε in 𝓝 (0 : ℚ), crossesProperly (s.shift r ε) e = true := by
  apply (isOpen_crossesProperly s e r).mem_nhds
  simpa [shift_zero] using h

end Small

section Parts

/-- Points of a segment are on its line. -/
theorem orientation_eq_zero_of_covers (h : s.Covers p) : orientation s.start s.stop p = 0 := by
  obtain ⟨u, -, -, rfl⟩ := h
  exact orientation_along_self s u

/-- Segments that cross inside both have no end on each other. -/
theorem apart_of_crossesProperly (h : crossesProperly s e = true) : Apart s e := by
  simp only [crossesProperly, Bool.and_eq_true, opposite_iff_mul_neg] at h
  constructor
  · intro hp
    exact h.1.ne (by rw [orientation_eq_zero_of_covers hp, zero_mul])
  · intro hp
    exact h.1.ne (by rw [orientation_eq_zero_of_covers hp, mul_zero])
  · intro hp
    exact h.2.ne (by rw [orientation_eq_zero_of_covers hp, zero_mul])
  · intro hp
    exact h.2.ne (by rw [orientation_eq_zero_of_covers hp, mul_zero])

/-- A common point of segments without an end on each other lies inside both. -/
theorem Apart.exists_inside (h : Apart s e) (hmeet : s.Meets e) :
    ∃ u v, (0 < u ∧ u < 1) ∧ (0 < v ∧ v < 1) ∧ s.along u = e.along v := by
  obtain ⟨p, ⟨u, hu₀, hu₁, hu⟩, v, hv₀, hv₁, hv⟩ := hmeet
  have hu₀' : u ≠ 0 := by
    rintro rfl
    exact h.start_off ⟨v, hv₀, hv₁, by rw [hv, ← hu, along_zero]⟩
  have hu₁' : u ≠ 1 := by
    rintro rfl
    exact h.stop_off ⟨v, hv₀, hv₁, by rw [hv, ← hu, along_one]⟩
  have hv₀' : v ≠ 0 := by
    rintro rfl
    exact h.off_start ⟨u, hu₀, hu₁, by rw [hu, ← hv, along_zero]⟩
  have hv₁' : v ≠ 1 := by
    rintro rfl
    exact h.off_stop ⟨u, hu₀, hu₁, by rw [hu, ← hv, along_one]⟩
  exact ⟨u, v, ⟨hu₀.lt_of_ne' hu₀', hu₁.lt_of_ne hu₁'⟩, ⟨hv₀.lt_of_ne' hv₀', hv₁.lt_of_ne hv₁'⟩,
    hu.trans hv.symm⟩

/-- Both ends of the segment lie on another one. -/
structure PartOf (f e : Segment ℚ) : Prop where
  start : e.Covers f.start
  stop : e.Covers f.stop

/-- The points of a part are points of the segment. -/
theorem PartOf.covers (h : PartOf f e) (hp : f.Covers p) : e.Covers p := by
  obtain ⟨a, ha₀, ha₁, ha⟩ := h.start
  obtain ⟨b, hb₀, hb₁, hb⟩ := h.stop
  obtain ⟨u, hu₀, hu₁, rfl⟩ := hp
  have hbetween := between_of_ratio a b hu₀ hu₁
  exact ⟨_, (le_min ha₀ hb₀).trans hbetween.1, hbetween.2.trans (max_le ha₁ hb₁),
    (along_eq_along ha hb u).symm⟩

/-- A part of a segment has its direction. -/
theorem cross_of_along {a b : ℚ} (ha : e.along a = f.start) (hb : e.along b = f.stop)
    (g : Segment ℚ) : f.cross g = (b - a) * e.cross g := by
  simp only [cross, ← ha, ← hb, along]
  ring

/-- What is parallel to a segment is parallel to its parts. -/
theorem PartOf.cross_eq_zero (h : PartOf f e) (hc : e.cross g = 0) : f.cross g = 0 := by
  obtain ⟨a, -, -, ha⟩ := h.start
  obtain ⟨b, -, -, hb⟩ := h.stop
  rw [cross_of_along ha hb, hc, mul_zero]

/-- What crosses a part of a segment inside both crosses the segment. -/
theorem PartOf.crosses_whole (h : PartOf f e) (hx : crossesProperly f g = true) :
    crossesProperly e g = true := by
  have hc := cross_ne_zero_of_crossesProperly hx
  have hapart := apart_of_crossesProperly hx
  obtain ⟨u, v, ⟨hu₀, hu₁⟩, ⟨hv₀, hv₁⟩, huv⟩ :=
    hapart.exists_inside (hapart.crossesProperly_iff_meets.mp hx)
  obtain ⟨a, ha₀, ha₁, ha⟩ := h.start
  obtain ⟨b, hb₀, hb₁, hb⟩ := h.stop
  rw [cross_of_along ha hb, mul_ne_zero_iff, sub_ne_zero] at hc
  rw [along_eq_along ha hb] at huv
  have hinside : 0 < a + u * (b - a) ∧ a + u * (b - a) < 1 := by
    rcases lt_or_gt_of_ne hc.1 with hab | hab
    · constructor <;> nlinarith
    · constructor <;> nlinarith
  exact crossesProperly_of_inside hc.2 hinside.1 hinside.2 hv₀ hv₁ huv

/-- What meets a part of a segment without crossing the segment has an end on the part, or touches an
end of the part where the segment does not go on. -/
theorem PartOf.not_meets (h : PartOf f e) (hx : crossesProperly e g = false)
    (hends : ¬f.Covers g.start ∧ ¬f.Covers g.stop) (hstart : ¬g.Covers f.start)
    (hstop : f.stop ≠ e.start ∧ f.stop ≠ e.stop) : ¬f.Meets g := by
  intro hmeet
  by_cases hc : f.cross g = 0
  · rcases end_covered_of_cross_eq_zero hc hmeet with hp | hp | hp
    · exact hstart hp
    · exact hends.1 hp
    · exact hends.2 hp
  · have hstop' : g.Covers f.stop := by
      rcases segmentsIntersect_iff.mp (segmentsIntersect_iff_meets.mpr hmeet) with hp | hp | hp | hp | hp
      · rw [h.crosses_whole hp] at hx
        contradiction
      · exact absurd hp hstart
      · exact hp
      · exact absurd hp hends.1
      · exact absurd hp hends.2
    obtain ⟨m, hm₀, hm₁, hm⟩ := hstop'
    obtain ⟨t, ht₀, ht₁, ht⟩ := h.stop
    have hne : t ≠ 0 ∧ t ≠ 1 ∧ m ≠ 0 ∧ m ≠ 1 := by
      refine ⟨?_, ?_, ?_, ?_⟩
      · rintro rfl
        exact hstop.1 (by rw [← ht, along_zero])
      · rintro rfl
        exact hstop.2 (by rw [← ht, along_one])
      · rintro rfl
        exact hends.1 (by rw [← along_zero g, hm]; exact f.covers_stop)
      · rintro rfl
        exact hends.2 (by rw [← along_one g, hm]; exact f.covers_stop)
    have hcross := crossesProperly_of_inside (fun he => hc (h.cross_eq_zero he))
      (ht₀.lt_of_ne' hne.1) (ht₁.lt_of_ne hne.2.1) (hm₀.lt_of_ne' hne.2.2.1) (hm₁.lt_of_ne hne.2.2.2)
      (ht.trans hm.symm)
    rw [hcross] at hx
    contradiction

/-- A parallel segment that covers the start of a part, and has no end on it, covers all of it. -/
theorem PartOf.of_parallel (h : PartOf f e) (hc : e.cross g = 0) (hstart : g.Covers f.start)
    (hends : ¬f.Covers g.start ∧ ¬f.Covers g.stop) : PartOf f g := by
  have hcross : f.reverse.cross g = 0 := by rw [reverse_cross, h.cross_eq_zero hc, neg_zero]
  have hmeet : f.reverse.Meets g := ⟨f.start, f.reverse.covers_stop, hstart⟩
  rcases end_covered_of_cross_eq_zero hcross hmeet with hp | hp | hp
  · exact ⟨hstart, hp⟩
  · exact absurd (covers_reverse.mp hp) hends.1
  · exact absurd (covers_reverse.mp hp) hends.2

end Parts

section Strip

/-- A part of a segment is moved off its line. An edge on that line is left behind, an edge that it
does not meet is avoided, and an edge that it crosses inside both is still crossed, so that no end of
one comes to lie on the other. -/
theorem PartOf.eventually_apart (h : PartOf f e) (hr : e.cross r ≠ 0)
    (hends : ¬f.Covers g.start ∧ ¬f.Covers g.stop)
    (hclear : e.cross g ≠ 0 → ¬g.Covers f.start ∧ ¬g.Covers f.stop) :
    ∀ᶠ ε in 𝓝[≠] (0 : ℚ),
      Apart (f.shift r ε) g ∧ crossesProperly (f.shift r ε) g = crossesProperly f g := by
  by_cases hmeet : f.Meets g
  · by_cases hpar : e.cross g = 0
    · obtain ⟨x, hxf, v, -, -, hv⟩ := hmeet
      have hline : ∀ u, orientation e.start e.stop (g.along u) = 0 := by
        have hx : orientation e.start e.stop (g.along v) = 0 :=
          hv ▸ orientation_eq_zero_of_covers (h.covers hxf)
        intro u
        rwa [orientation_along, hpar, mul_zero, add_zero] at hx ⊢
      have hmoved {ε : ℚ} (hε : ε ≠ 0) : ¬(f.shift r ε).Meets g := by
        rintro ⟨y, ⟨u, hu₀, hu₁, hu⟩, w, -, -, hw⟩
        have hoff : orientation e.start e.stop y = ε * e.cross r := by
          rw [← hu, along_of_shift, orientation_shift,
            orientation_eq_zero_of_covers (h.covers ⟨u, hu₀, hu₁, rfl⟩), zero_add]
        rw [← hw, hline] at hoff
        exact mul_ne_zero hε hr hoff.symm
      have hcross : crossesProperly f g = false := by
        rw [← Bool.not_eq_true]
        exact fun hx => cross_ne_zero_of_crossesProperly hx (h.cross_eq_zero hpar)
      filter_upwards [self_mem_nhdsWithin] with ε hε
      exact ⟨apart_of_not_meets (hmoved hε),
        (crossesProperly_eq_false_of_not_meets (hmoved hε)).trans hcross.symm⟩
    · have hapart : Apart f g := ⟨(hclear hpar).1, (hclear hpar).2, hends.1, hends.2⟩
      have hx := hapart.crossesProperly_iff_meets.mpr hmeet
      filter_upwards [nhdsWithin_le_nhds (eventually_crossesProperly hx r)] with ε hε
      exact ⟨apart_of_crossesProperly hε, hε.trans hx.symm⟩
  · filter_upwards [nhdsWithin_le_nhds (eventually_not_meets hmeet r)] with ε hε
    exact ⟨apart_of_not_meets hε, (crossesProperly_eq_false_of_not_meets hε).trans
      (crossesProperly_eq_false_of_not_meets hmeet).symm⟩

end Strip

end Planar

end SpatialSql
