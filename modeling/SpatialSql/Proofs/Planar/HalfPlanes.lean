import SpatialSql.Proofs.Planar.Runs
import SpatialSql.Proofs.Planar.Touching

/-!
# Convex polygons as half-planes

Clipping asks of a point on which side of each edge it lies, where membership casts a ray. For a
convex polygon without repeated vertices both give the same answer. A point on the inner side
of every edge sees the levels of the ring rise and fall once, and its ray passes the one run
that leads past it on the right. A point on the outer side of some edge can be moved away along
that edge without meeting the ring. And from a point inside, every other point of the closed
region is reached before the ring is left.
-/

namespace SpatialSql

section Oddly

variable {β γ : Type} {f : β → Bool} {xs ys : List β}

/-- Parities of two lists add up. -/
theorem oddly_append (f : β → Bool) (xs ys : List β) :
    oddly f (xs ++ ys) = (oddly f xs != oddly f ys) := by
  rw [oddly, List.foldl_append, foldl_bne]
  rfl

theorem oddly_map (f : β → Bool) (g : γ → β) (xs : List γ) :
    oddly f (xs.map g) = oddly (fun x => f (g x)) xs := by
  rw [oddly, List.foldl_map]
  rfl

/-- A parity does not depend on order. -/
theorem oddly_perm (h : xs.Perm ys) : oddly f xs = oddly f ys := by
  induction h with
  | nil => rfl
  | cons x _ ih => rw [oddly_cons, oddly_cons, ih]
  | swap x y xs =>
    rw [oddly_cons, oddly_cons, oddly_cons, oddly_cons]
    exact Bool.xor_left_comm (f y) (f x) _
  | trans _ _ ih ih' => rw [ih, ih']

/-- What changes from one place to the next changes between the first and the last. -/
theorem oddly_range (g : ℕ → Bool) (n : ℕ) :
    oddly (fun i => g i != g (i + 1)) (List.range n) = (g 0 != g n) := by
  induction n with
  | zero => simp
  | succ n ih =>
    rw [List.range_succ, oddly_append, ih, oddly_cons, oddly_nil]
    simp

end Oddly

namespace Planar

open Segment Coordinate Filter Topology

variable {a : Polygon ℚ} {e f g : Segment ℚ} {p q : Point ℚ} {τ : ℚ}

section Rays

/-- To the left of a rising edge, the ray passes it exactly if it leads past the level of the point. -/
theorem rayCrosses_of_rising (hside : 0 < orientation e.start e.stop p) (hleads : e.Leads 1) :
    rayCrosses p e = (decide (p.y < e.start.y) != decide (p.y < e.stop.y)) := by
  have hlevel : e.start.y ≤ e.stop.y := by simpa using Upward.nonneg hleads
  rw [Bool.eq_iff_iff, rayCrosses_of_climbing hlevel, decide_eq_true_iff, bne_iff_ne, ne_eq,
    decide_eq_decide]
  constructor
  · rintro ⟨hstart, hstop, -⟩ hiff
    exact hstart.not_gt (hiff.mpr hstop)
  · intro hdiffer
    have hstart : ¬p.y < e.start.y := fun h => hdiffer (iff_of_true h (h.trans_le hlevel))
    exact ⟨not_lt.mp hstart, not_not.mp fun h => hdiffer (iff_of_false hstart h), hside⟩

/-- On the inner side of an edge that leads the way the ring winds, the ray passes it exactly if it
leads past the level of the point. -/
theorem rayCrosses_of_leads (hτ : τ = 1 ∨ τ = -1) (hside : 0 < orientation e.start e.stop p * τ)
    (hleads : e.Leads τ) :
    rayCrosses p e = (decide (p.y < e.start.y) != decide (p.y < e.stop.y)) := by
  rcases hτ with rfl | rfl
  · rw [mul_one] at hside
    exact rayCrosses_of_rising hside hleads
  · rw [mul_neg_one, ← orientation_swap] at hside
    rw [← rayCrosses_reverse, rayCrosses_of_rising hside (leads_reverse.mpr hleads)]
    exact Bool.xor_comm _ _

/-- The ray never passes an edge that leads the other way. -/
theorem rayCrosses_of_leads_neg (hτ : τ = 1 ∨ τ = -1)
    (hside : 0 < orientation e.start e.stop p * τ) (hleads : e.Leads (-τ)) :
    rayCrosses p e = false := by
  have hlevel := Upward.nonneg hleads
  rw [← Bool.not_eq_true, rayCrosses_iff]
  rcases hτ with rfl | rfl
  · rintro (⟨hstart, hstop, -⟩ | ⟨-, -, ho⟩) <;> linarith
  · rintro (⟨-, -, ho⟩ | ⟨hstop, hstart, -⟩) <;> linarith

/-- Seen from the inner side of all edges, a ray to the right passes the ring an odd number of times
exactly if the ends of its runs lie on different sides of the level. -/
theorem inside_of_runs {first k : ℕ} (hclosed : a.Closed) (hτ : τ = 1 ∨ τ = -1)
    (hruns : a.Runs τ first k)
    (hp : ∀ e ∈ a.edges, 0 < orientation e.start e.stop p * τ) :
    inside a p = (decide (p.y < (a.vertexAt first).y) != decide (p.y < (a.vertexAt (first + k)).y)) := by
  have hside (i : ℕ) : 0 < orientation (a.side i).start (a.side i).stop p * τ :=
    hp _ ((hclosed.mem_edges_iff hruns.vertexCount_pos).mpr ⟨i, rfl⟩)
  have hout : oddly (fun i => rayCrosses p (a.side (first + i))) (List.range k) =
      (decide (p.y < (a.vertexAt first).y) != decide (p.y < (a.vertexAt (first + k)).y)) := by
    refine Eq.trans (oddly_congr fun i hi => ?_)
      (oddly_range (fun i => decide (p.y < (a.vertexAt (first + i)).y)) k)
    exact rayCrosses_of_leads hτ (hside _) (hruns.out i (List.mem_range.mp hi))
  have hback : oddly (fun i => rayCrosses p (a.side (first + (k + i))))
      (List.range (a.vertexCount - k)) = false := by
    apply oddly_eq_false
    intro i hi
    have hik := List.mem_range.mp hi
    exact rayCrosses_of_leads_neg hτ (hside _)
      (hruns.back _ (Nat.le_add_right k i) (by omega))
  rw [inside, ← oddly_perm (hclosed.perm_edges first), oddly_map,
    ← Nat.add_sub_cancel' hruns.lt.le, List.range_add, oddly_append, oddly_map, hout, hback,
    Bool.bne_false]

end Rays

section Inner

/-- What lies strictly on the inner side of both edges at a valley lies strictly above its level, and
strictly below that of a peak. -/
theorem level_of_inward (hτ : τ ≠ 0) (hturn : 0 < inward a e f.stop) (hef : e.stop = f.start)
    (hin : e.Leads (-τ)) (hout : f.Leads τ) (hep : 0 < inward a e p) (hfp : 0 < inward a f p) :
    0 < τ * (p.y - f.start.y) := by
  have hy := (inward_frame a hef p).2
  have hup := Upward.nonneg hout
  have hup' := Upward.nonneg hin
  have hsum : inward a e f.stop * (τ * (p.y - f.start.y)) =
      inward a e p * (τ * (f.stop.y - f.start.y)) +
        inward a f p * (-τ * (e.stop.y - e.start.y)) := by
    linear_combination τ * hy
  by_contra hle
  have hsum_le : inward a e f.stop * (τ * (p.y - f.start.y)) ≤ 0 :=
    mul_nonpos_of_nonneg_of_nonpos hturn.le (not_lt.mp hle)
  have hterm := mul_nonneg hep.le hup
  have hterm' := mul_nonneg hfp.le hup'
  have hflat : f.stop.y - f.start.y = 0 := by
    have hzero : inward a e p * (τ * (f.stop.y - f.start.y)) = 0 := by linarith
    exact (mul_eq_zero.mp ((mul_eq_zero.mp hzero).resolve_left hep.ne')).resolve_left hτ
  have hflat' : e.stop.y - e.start.y = 0 := by
    have hzero : inward a f p * (-τ * (e.stop.y - e.start.y)) = 0 := by linarith
    exact (mul_eq_zero.mp ((mul_eq_zero.mp hzero).resolve_left hfp.ne')).resolve_left
      (neg_ne_zero.mpr hτ)
  have hrise : f.stop.y - e.start.y = 0 := by
    rw [hef] at hflat'
    linarith
  refine hturn.ne' (inward_eq_zero_iff.mpr ?_)
  rw [orientation, hflat', hrise, mul_zero, zero_mul, sub_zero]

/-- The first vertex of a run lies strictly below, or above, what is on the inner side of all edges. -/
theorem Convex.level_of_runs {first k : ℕ} (h : Convex a) (hclosed : a.Closed)
    (harea : signedArea a ≠ 0) (hτ : τ ≠ 0) (hruns : a.Runs τ first k)
    (hp : ∀ e ∈ a.edges, 0 < inward a e p) : 0 < τ * (p.y - (a.vertexAt first).y) := by
  have hmem (i : ℕ) : a.side i ∈ a.edges :=
    (hclosed.mem_edges_iff hruns.vertexCount_pos).mpr ⟨i, rfl⟩
  have hlt := hruns.lt
  have hin := hruns.back (a.vertexCount - 1) (by omega) (by omega)
  have hout := hruns.out 0 hruns.pos
  rw [Nat.add_zero] at hout
  have hstop : (a.side (first + (a.vertexCount - 1))).stop = (a.side first).start :=
    Polygon.stop_side_previous hruns.vertexCount_pos first
  exact level_of_inward hτ (h.turn_pos hclosed harea (hmem _) (hmem _) hstop hin hout) hstop hin hout
    (hp _ (hmem _)) (hp _ (hmem _))

/-- The ring winds around every point that is strictly on the inner side of all edges. -/
theorem Convex.inside_of_inward (h : Convex a) (hclosed : a.Closed) (harea : signedArea a ≠ 0)
    (hn : a.ring.dropLast.Nodup) (hp : ∀ e ∈ a.edges, 0 < inward a e p) : inside a p = true := by
  obtain ⟨first, k, hrising⟩ := exists_runs hclosed hn (h.existsUnique_valley hclosed harea hn)
  have hbelow := h.level_of_runs hclosed harea one_ne_zero hrising hp
  have habove := h.level_of_runs hclosed harea (neg_ne_zero.mpr one_ne_zero) hrising.swap hp
  have hlow : ¬p.y < (a.vertexAt first).y := by linarith
  have hhigh : p.y < (a.vertexAt (first + k)).y := by linarith
  rcases sign_eq_one_or_neg_one (signedArea a) with hsign | hsign
  · rw [inside_of_runs hclosed (.inl rfl) hrising (by simpa only [inward, hsign] using hp)]
    simp [hlow, hhigh]
  · have hround : first + k + (a.vertexCount - k) = first + a.vertexCount := by
      have := hrising.lt
      omega
    rw [inside_of_runs hclosed (.inr rfl) hrising.swap (by simpa only [inward, hsign] using hp), hround,
      Polygon.vertexAt_add_vertexCount]
    simp [hlow, hhigh]

/-- Some point is strictly on the inner side of all edges: the middle of the triangle at a valley,
whose corners are not all on one line. -/
theorem Convex.exists_inward (h : Convex a) (hclosed : a.Closed) (harea : signedArea a ≠ 0)
    (hn : a.ring.dropLast.Nodup) : ∃ q, ∀ e ∈ a.edges, 0 < inward a e q := by
  have hcount := two_le_vertexCount hclosed harea
  obtain ⟨v, e₀, he₀, f₀, hf₀, hev, rfl, hin, hout⟩ := exists_valley hclosed hn hcount
  have hturn := h.turn_pos hclosed harea he₀ hf₀ hev hin hout
  obtain ⟨hu, hv⟩ := Polygon.mem_ring_of_mem_edges he₀
  have hw := (Polygon.mem_ring_of_mem_edges hf₀).2
  refine ⟨⟨(e₀.start.x + e₀.stop.x + f₀.stop.x) / 3, (e₀.start.y + e₀.stop.y + f₀.stop.y) / 3⟩, ?_⟩
  intro e he
  have hmiddle : inward a e
      ⟨(e₀.start.x + e₀.stop.x + f₀.stop.x) / 3, (e₀.start.y + e₀.stop.y + f₀.stop.y) / 3⟩ =
      (inward a e e₀.start + inward a e e₀.stop + inward a e f₀.stop) / 3 := by
    simp only [inward, orientation]
    ring
  have hu' := h e he _ hu
  have hv' := h e he _ hv
  have hw' := h e he _ hw
  rw [hmiddle]
  by_contra hle
  obtain ⟨i, rfl⟩ := (hclosed.mem_edges_iff (Nat.zero_lt_of_lt hcount)).mp he
  have hu₀ : inward a (a.side i) e₀.start = 0 := by linarith
  have hv₀ : inward a (a.side i) e₀.stop = 0 := by linarith
  have hw₀ : inward a (a.side i) f₀.stop = 0 := by linarith
  rw [inward_eq_zero_iff] at hu₀ hv₀ hw₀
  exact hturn.ne' (inward_eq_zero_iff.mpr
    (orientation_of_line (Polygon.start_ne_stop hn hcount i) hu₀ hv₀ hw₀))

end Inner

section Outer

/-- No point of an edge is on the outer side of another one. -/
theorem Convex.inward_of_covers (h : Convex a) (he : e ∈ a.edges) (hg : g ∈ a.edges)
    (hp : g.Covers p) : 0 ≤ inward a e p := by
  obtain ⟨u, hu₀, hu₁, rfl⟩ := hp
  obtain ⟨hstart, hstop⟩ := Polygon.mem_ring_of_mem_edges hg
  rw [inward_along]
  exact add_nonneg (mul_nonneg (sub_nonneg.mpr hu₁) (h e he _ hstart))
    (mul_nonneg hu₀ (h e he _ hstop))

/-- High enough above a ring, no ray to the right meets it. -/
theorem exists_above (a : Polygon ℚ) : ∃ Y : ℚ, ∀ z : Point ℚ, Y ≤ z.y → inside a z = false := by
  obtain ⟨Y, hY⟩ := (a.ring.finite_toSet.image Point.y).bddAbove
  have hring : ∀ v ∈ a.ring, v.y ≤ Y := fun v hv => hY ⟨v, hv, rfl⟩
  refine ⟨Y, fun z hz => oddly_eq_false fun e he => ?_⟩
  obtain ⟨hstart, hstop⟩ := Polygon.mem_ring_of_mem_edges he
  rw [← Bool.not_eq_true, rayCrosses_iff]
  rintro (⟨-, hlevel, -⟩ | ⟨-, hlevel, -⟩)
  · linarith [hring _ hstop]
  · linarith [hring _ hstart]

/-- Along any direction there is a point far enough away to be outside. -/
theorem exists_shift_outside (a : Polygon ℚ) (he : e.start ≠ e.stop) (p : Point ℚ) :
    ∃ ε, inside a (p.shift e ε) = false := by
  by_cases hx : e.stop.x - e.start.x = 0
  · have hy : e.stop.y - e.start.y ≠ 0 := by
      intro hy
      exact he (Point.ext (sub_eq_zero.mp hx).symm (sub_eq_zero.mp hy).symm)
    obtain ⟨Y, hY⟩ := exists_above a
    refine ⟨(Y - p.y) / (e.stop.y - e.start.y), hY _ ?_⟩
    rw [Point.shift, div_mul_cancel₀ _ hy, add_sub_cancel]
  · obtain ⟨X, hX, -⟩ := exists_beyond a
    refine ⟨(X - p.x) / (e.stop.x - e.start.x), hX _ ?_⟩
    rw [Point.shift, div_mul_cancel₀ _ hx, add_sub_cancel]

/-- On the outer side of an edge there is nothing inside a convex ring. -/
theorem Convex.inside_eq_false (h : Convex a) (hclosed : a.Closed) (he : e ∈ a.edges)
    (hp : inward a e p < 0) : inside a p = false := by
  have hlength : e.start ≠ e.stop := by
    intro hpoint
    refine hp.ne (inward_eq_zero_iff.mpr ?_)
    rw [orientation, hpoint]
    ring
  obtain ⟨ε, hfar⟩ := exists_shift_outside a hlength p
  have hparallel : inward a e (p.shift e ε) = inward a e p := by
    rw [inward, orientation_shift, inward]
    simp only [cross]
    ring
  rw [← hfar]
  refine inside_eq_of_not_meets hclosed (s := ⟨p, p.shift e ε⟩) ?_
  rintro g hg ⟨x, ⟨u, -, -, rfl⟩, hx⟩
  have hinner := h.inward_of_covers he hg hx
  rw [inward_along, hparallel, ← add_mul, sub_add_cancel, one_mul] at hinner
  exact hinner.not_gt hp

end Outer

section Closure

/-- From a point strictly on the inner side of all edges, the way to a point that is on none of them and
on the outer side of none stays clear of the ring. -/
theorem inside_eq_of_inward_nonneg (hclosed : a.Closed) (hq : ∀ e ∈ a.edges, 0 < inward a e q)
    (hp : ∀ e ∈ a.edges, 0 ≤ inward a e p) (hoff : ∀ e ∈ a.edges, ¬e.Covers p) :
    inside a q = inside a p := by
  refine inside_eq_of_not_meets hclosed (s := ⟨q, p⟩) ?_
  rintro e he ⟨x, ⟨u, hu₀, hu₁, rfl⟩, hx⟩
  rcases hu₁.eq_or_lt with rfl | hu₁
  · exact hoff e he (by rwa [along_one] at hx)
  · have hpos : 0 < inward a e ((⟨q, p⟩ : Segment ℚ).along u) := by
      rw [inward_along]
      exact add_pos_of_pos_of_nonneg (mul_pos (sub_pos.mpr hu₁) (hq e he)) (mul_nonneg hu₀ (hp e he))
    exact hpos.ne' (inward_eq_zero_of_covers hx)

/-- A point off the edges that is inside a convex ring is not on the line of an edge. Seen from an
inner point, a small step beyond that line would lead outside. -/
theorem Convex.inward_ne_zero (h : Convex a) (hclosed : a.Closed)
    (hq : ∀ e ∈ a.edges, 0 < inward a e q) (hoff : ∀ e ∈ a.edges, ¬e.Covers p)
    (hinside : inside a p = true) (he : e ∈ a.edges) : inward a e p ≠ 0 := by
  intro hzero
  obtain ⟨δ, hδ, hside⟩ := exists_near_side hclosed p
  let s : Segment ℚ := ⟨q, p⟩
  have hnear : ∀ᶠ t in 𝓝 (1 : ℚ), p.Near δ (s.along t) := by
    apply Point.Near.eventually s.along
    · rw [along_one]
      exact Point.near_self hδ p
    all_goals
      simp only [along]
      fun_prop
  have hbeyond : ∀ᶠ t in 𝓝[>] (1 : ℚ), 1 < t := self_mem_nhdsWithin
  obtain ⟨t, hclose, ht⟩ := ((hnear.filter_mono nhdsWithin_le_nhds).and hbeyond).exists
  have houter : inward a e (s.along t) < 0 := by
    rw [inward_along, hzero, mul_zero, add_zero]
    exact mul_neg_of_neg_of_pos (sub_neg.mpr ht) (hq e he)
  have houtside := h.inside_eq_false hclosed he houter
  rw [hside hoff _ hclose, hinside] at houtside
  contradiction

end Closure

/-- For a convex polygon with an area and without repeated vertices, casting rays and testing the side
of every edge agree: the polygon covers the points that are on the inner side of all edges or on
their lines, and contains those that are strictly on the inner side. -/
theorem membership_iff_inward (hclosed : a.Closed) (harea : signedArea a ≠ 0)
    (hn : a.ring.dropLast.Nodup) (hconvex : Convex a) (p : Point ℚ) :
    (coversPoint a p = true ↔ ∀ e ∈ a.edges, 0 ≤ inward a e p) ∧
      (containsPoint a p = true ↔ ∀ e ∈ a.edges, 0 < inward a e p) := by
  obtain ⟨q, hq⟩ := hconvex.exists_inward hclosed harea hn
  have hinner : inside a p = true → ∀ e ∈ a.edges, 0 ≤ inward a e p := by
    intro hinside e he
    by_contra hneg
    rw [hconvex.inside_eq_false hclosed he (not_le.mp hneg)] at hinside
    contradiction
  constructor
  · rw [coversPoint_iff]
    constructor
    · rintro (⟨g, hg, hon⟩ | hinside)
      · exact fun e he => hconvex.inward_of_covers he hg hon
      · exact hinner hinside
    · intro hp
      by_cases hon : ∃ e ∈ a.edges, e.Covers p
      · exact .inl hon
      · push Not at hon
        rw [← inside_eq_of_inward_nonneg hclosed hq hp hon]
        exact .inr (hconvex.inside_of_inward hclosed harea hn hq)
  · rw [containsPoint_iff]
    constructor
    · rintro ⟨hoff, hinside⟩ e he
      exact (hinner hinside e he).lt_of_ne'
        (hconvex.inward_ne_zero hclosed hq hoff hinside he)
    · intro hp
      refine ⟨fun e he hon => (hp e he).ne' (inward_eq_zero_of_covers hon), ?_⟩
      exact hconvex.inside_of_inward hclosed harea hn hp

/-- A diamond that runs clockwise, with a vertex in the middle of a side. -/
def diamond : Polygon ℚ := ⟨[⟨-2, 0⟩, ⟨0, 2⟩, ⟨1, 1⟩, ⟨2, 0⟩, ⟨0, -2⟩, ⟨-2, 0⟩]⟩

/-- The ray from the first point leaves the diamond through the vertex on its side, the second point is
that vertex, and the ray from the third passes both ends of the diamond. -/
theorem membership_iff_inward_diamond :
    containsPoint diamond ⟨0, 1⟩ = true ∧
      (coversPoint diamond ⟨1, 1⟩ = true ∧ ¬containsPoint diamond ⟨1, 1⟩ = true) ∧
      ¬coversPoint diamond ⟨-3, 0⟩ = true := by
  have hdiamond : Polygon.ofPoints? [⟨-2, 0⟩, ⟨0, 2⟩, ⟨1, 1⟩, ⟨2, 0⟩, ⟨0, -2⟩] = some diamond ∧
      signedArea diamond ≠ 0 ∧ diamond.ring.dropLast.Nodup ∧ Convex diamond := by
    decide +kernel
  have hsides : (∀ e ∈ diamond.edges, 0 < inward diamond e ⟨0, 1⟩) ∧
      ((∀ e ∈ diamond.edges, 0 ≤ inward diamond e ⟨1, 1⟩) ∧
        ¬∀ e ∈ diamond.edges, 0 < inward diamond e ⟨1, 1⟩) ∧
      ¬∀ e ∈ diamond.edges, 0 ≤ inward diamond e ⟨-3, 0⟩ := by
    decide +kernel
  obtain ⟨hpoints, harea, hn, hconvex⟩ := hdiamond
  have hiff := membership_iff_inward (Polygon.closed_of_ofPoints? hpoints) harea hn hconvex
  rwa [(hiff ⟨0, 1⟩).2, (hiff ⟨1, 1⟩).1, (hiff ⟨1, 1⟩).2, (hiff ⟨-3, 0⟩).1]

end Planar

end SpatialSql
