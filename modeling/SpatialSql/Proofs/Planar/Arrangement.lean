import SpatialSql.Proofs.Planar.Displacement
import Mathlib.Algebra.CharZero.Infinite

/-!
# Ways across the edges

Finitely many edges have finitely many corners, the ends of edges and the points where edges
that are not parallel meet, so from a point off the edges there is a way out that avoids them
all. A property of points that changes only across edges is lost on that way at some edge,
away from corners. From there the edge is followed up to the next vertex, at a small distance
on either side. What holds on one side of the edge is thus taken along to a vertex, except for
the edges that are crossed on the way.
-/

namespace SpatialSql

open Filter Topology

/-- The point lies in the square of a given size around another one. -/
def Point.Near (δ : ℚ) (v p : Point ℚ) : Prop := |p.x - v.x| < δ ∧ |p.y - v.y| < δ

theorem Point.near_self {δ : ℚ} (hδ : 0 < δ) (v : Point ℚ) : v.Near δ v := by
  simpa [Point.Near] using hδ

theorem Point.Near.mono {δ δ' : ℚ} {v p : Point ℚ} (h : v.Near δ p) (hδ : δ ≤ δ') : v.Near δ' p :=
  ⟨h.1.trans_le hδ, h.2.trans_le hδ⟩

/-- A point that moves continuously stays near another one for a while. -/
theorem Point.Near.eventually {δ t : ℚ} {v : Point ℚ} (path : ℚ → Point ℚ)
    (h : v.Near δ (path t)) (hx : Continuous fun t => (path t).x)
    (hy : Continuous fun t => (path t).y) : ∀ᶠ t' in 𝓝 t, v.Near δ (path t') := by
  have hx' : Continuous fun t => |(path t).x - v.x| := (hx.sub continuous_const).abs
  have hy' : Continuous fun t => |(path t).y - v.y| := (hy.sub continuous_const).abs
  exact (hx'.continuousAt.eventually_lt_const h.1).and (hy'.continuousAt.eventually_lt_const h.2)

namespace Planar

open Segment

variable {E : List (Segment ℚ)} {e g r : Segment ℚ} {p q v w : Point ℚ} {δ : ℚ}

section Corners

/-- An end of an edge. -/
def Vertex (E : List (Segment ℚ)) (x : Point ℚ) : Prop := ∃ e ∈ E, x = e.start ∨ x = e.stop

/-- The vertices of two arrangements together are those of either. -/
theorem vertex_append {E E' : List (Segment ℚ)} {x : Point ℚ} :
    Vertex (E ++ E') x ↔ Vertex E x ∨ Vertex E' x := by
  simp only [Vertex, List.mem_append, or_and_right, exists_or]

/-- A vertex, or a point where edges that are not parallel meet. -/
def Corner (E : List (Segment ℚ)) (x : Point ℚ) : Prop :=
  Vertex E x ∨ ∃ e ∈ E, ∃ g ∈ E, e.cross g ≠ 0 ∧ e.Covers x ∧ g.Covers x

/-- An arrangement has finitely many vertices. -/
theorem finite_vertices (E : List (Segment ℚ)) : {x | Vertex E x}.Finite := by
  have hends : {x | Vertex E x} = ⋃ e ∈ {e | e ∈ E}, {e.start, e.stop} := by
    ext x
    simp [Vertex]
  rw [hends]
  exact E.finite_toSet.biUnion fun e _ => Set.toFinite _

/-- An arrangement has finitely many corners. -/
theorem finite_corners (E : List (Segment ℚ)) : {x | Corner E x}.Finite := by
  have hmeet (e g : Segment ℚ) : {x | e.cross g ≠ 0 ∧ e.Covers x ∧ g.Covers x}.Finite := by
    apply Set.Subsingleton.finite
    rintro x ⟨hc, hex, hgx⟩ y ⟨-, hey, hgy⟩
    exact eq_of_covers hc hex hgx hey hgy
  apply (finite_vertices E).union
    (E.finite_toSet.biUnion fun e _ => E.finite_toSet.biUnion fun g _ => hmeet e g) |>.subset
  rintro x (hx | ⟨e, he, g, hg, hx⟩)
  · exact .inl hx
  · exact .inr (Set.mem_biUnion he (Set.mem_biUnion hg hx))

/-- Corners lie on edges. -/
theorem Corner.exists_covers (h : Corner E p) : ∃ e ∈ E, e.Covers p := by
  rcases h with ⟨e, he, rfl | rfl⟩ | ⟨e, he, g, -, -, hp, -⟩
  · exact ⟨e, he, e.covers_start⟩
  · exact ⟨e, he, e.covers_stop⟩
  · exact ⟨e, he, hp⟩

/-- Through a point that is no corner there pass only parallel edges. -/
theorem not_covers_of_not_corner (hp : ¬Corner E p) (he : e ∈ E) (hg : g ∈ E) (hep : e.Covers p)
    (hc : e.cross g ≠ 0) : ¬g.Covers p :=
  fun hgp => hp (.inr ⟨e, he, g, hg, hc, hep, hgp⟩)

/-- Finitely many points are avoided by some way that leads as far to the right as desired: at a
fixed abscissa each of them spoils at most one end. -/
theorem exists_way_out {C : Set (Point ℚ)} (hC : C.Finite) (hp : p ∉ C) (X : ℚ) :
    ∃ z : Point ℚ, X ≤ z.x ∧ p.x < z.x ∧ ∀ c ∈ C, ¬(⟨p, z⟩ : Segment ℚ).Covers c := by
  let X' := max X (p.x + 1)
  obtain ⟨Y, hY⟩ := (hC.image fun c =>
    p.y + (X' - p.x) * (c.y - p.y) / (c.x - p.x)).exists_notMem
  have hX' : p.x < X' := lt_of_lt_of_le (lt_add_one p.x) (le_max_right _ _)
  refine ⟨⟨X', Y⟩, le_max_left _ _, hX', ?_⟩
  intro c hc hcov
  have hline : (X' - p.x) * (c.y - p.y) - (Y - p.y) * (c.x - p.x) = 0 :=
    orientation_eq_zero_of_covers hcov
  by_cases hx : c.x - p.x = 0
  · rw [hx, mul_zero, sub_zero, mul_eq_zero] at hline
    have hy := hline.resolve_left (sub_pos.mpr hX').ne'
    exact hp ((Point.ext (sub_eq_zero.mp hx) (sub_eq_zero.mp hy) : c = p) ▸ hc)
  · refine hY ⟨c, hc, ?_⟩
    field_simp
    linarith

end Corners

section Walks

variable {s : Segment ℚ} {t x : ℚ}

/-- Along a segment that has a length and comes to a vertex, there is a first one. -/
theorem exists_first_vertex (hs : s.start ≠ s.stop)
    (h : ∃ t, (0 < t ∧ t ≤ 1) ∧ Vertex E (s.along t)) :
    ∃ t, (0 < t ∧ t ≤ 1) ∧ Vertex E (s.along t) ∧ ∀ y, 0 < y → y < t → ¬Vertex E (s.along y) := by
  have hfinite : {t | (0 < t ∧ t ≤ 1) ∧ Vertex E (s.along t)}.Finite :=
    ((finite_vertices E).preimage fun x _ y _ => along_injective hs).subset fun x hx => hx.2
  obtain ⟨t, ⟨ht, hvertex⟩, hmin⟩ := Set.exists_min_image _ id hfinite h
  refine ⟨t, ht, hvertex, ?_⟩
  intro y hy₀ hyt hv
  exact hyt.not_ge (hmin y ⟨⟨hy₀, hyt.le.trans ht.2⟩, hv⟩)

/-- Shortly before a point of a segment there are points as near as desired with whatever holds
close to it. -/
theorem exists_before {P : ℚ → Prop} (s : Segment ℚ) (ht : 0 < t) (hδ : 0 < δ)
    (hP : ∀ᶠ x in 𝓝[<] t, P x) :
    ∃ x, (0 < x ∧ x < t) ∧ (s.along t).Near δ (s.along x) ∧ P x := by
  have hnear : ∀ᶠ x in 𝓝 t, (s.along t).Near δ (s.along x) := by
    apply Point.Near.eventually s.along (Point.near_self hδ (s.along t)) <;> simp only [along] <;>
      fun_prop
  obtain ⟨x, hx, hx', hPx⟩ :=
    (Filter.Eventually.and (Ioo_mem_nhdsLT ht)
      ((hnear.filter_mono nhdsWithin_le_nhds).and hP)).exists
  exact ⟨x, hx, hx', hPx⟩

/-- The first part of a segment covers no vertex if none is met on the way. -/
theorem not_covers_of_no_vertex (hx : 0 ≤ x) (hstart : ¬Vertex E s.start)
    (h : ∀ y, 0 < y → y ≤ x → ¬Vertex E (s.along y)) :
    ∀ v, Vertex E v → ¬(⟨s.start, s.along x⟩ : Segment ℚ).Covers v := by
  rintro v hv ⟨m, hm₀, hm₁, rfl⟩
  rw [along_eq_along (s := s) (t := ⟨s.start, s.along x⟩) s.along_zero rfl, zero_add, sub_zero] at hv
  rcases (mul_nonneg hm₀ hx).eq_or_lt with hzero | hpos
  · rw [← hzero, s.along_zero] at hv
    exact hstart hv
  · exact h _ hpos (mul_le_of_le_one_left hx hm₁) hv

end Walks

section Exits

variable {K : Point ℚ → Prop} {l u : ℚ}

/-- The property is kept by every move that touches no edge. -/
def Steady (E : List (Segment ℚ)) (K : Point ℚ → Prop) : Prop :=
  ∀ s : Segment ℚ, (∀ e ∈ E, ¬s.Meets e) → K s.start → K s.stop

/-- What changes only at finitely many places between two others, and is lost on the way, is lost at
one of them, with none of the rest nearby. By induction on the places: either the largest is the
one, or the property is lost before it. -/
theorem exists_loss {P : ℚ → Prop} (H : Finset ℚ) (hH : ∀ h ∈ H, l < h ∧ h < u) (hlu : l < u)
    (hl : P l) (hu : ¬P u)
    (hP : ∀ x y, l ≤ x → x < y → y ≤ u → (∀ h ∈ H, x ≤ h → ¬h ≤ y) → P x → P y) :
    ∃ h ∈ H, ∃ x y, (l ≤ x ∧ x < h) ∧ (h < y ∧ y ≤ u) ∧ P x ∧ ¬P y ∧
      ∀ h' ∈ H, x ≤ h' → h' ≤ y → h' = h := by
  induction H using Finset.induction_on_max generalizing u with
  | empty => exact absurd (hP l u le_rfl hlu le_rfl (by simp) hl) hu
  | insert h H hmax ih =>
    obtain ⟨hlh, hhu⟩ := hH h (Finset.mem_insert_self h H)
    have hbefore : (insert l H).max' (Finset.insert_nonempty l H) < h := by
      rw [Finset.max'_lt_iff, Finset.forall_mem_insert]
      exact ⟨hlh, hmax⟩
    obtain ⟨m, hm, hmh⟩ := exists_between hbefore
    rw [Finset.max'_lt_iff, Finset.forall_mem_insert] at hm
    obtain ⟨hlm, hHm⟩ := hm
    by_cases hPm : P m
    · refine ⟨h, Finset.mem_insert_self h H, m, u, ⟨hlm.le, hmh⟩, ⟨hhu, le_rfl⟩, hPm, hu, ?_⟩
      intro h' hh' hmh' _
      exact (Finset.mem_insert.mp hh').resolve_right fun hh' => (hHm h' hh').not_ge hmh'
    · have hrest : ∀ h' ∈ H, l < h' ∧ h' < m :=
        fun h' hh' => ⟨(hH h' (Finset.mem_insert_of_mem hh')).1, hHm h' hh'⟩
      obtain ⟨h', hh', x, y, hx, hy, hPx, hPy, honly⟩ := ih hrest hlm hPm (by
        intro x y hlx hxy hym hfree
        refine hP x y hlx hxy (hym.trans (hmh.trans hhu).le) ?_
        rw [Finset.forall_mem_insert]
        exact ⟨fun _ hhy => (hym.trans_lt hmh).not_ge hhy, hfree⟩)
      refine ⟨h', Finset.mem_insert_of_mem hh', x, y, hx, ⟨hy.1, hy.2.trans (hmh.trans hhu).le⟩, hPx,
        hPy, ?_⟩
      rw [Finset.forall_mem_insert]
      exact ⟨fun _ hhy => absurd hhy ((hy.2.trans_lt hmh).not_ge), honly⟩

/-- A place on an edge, away from corners, where a property is lost on the way in some direction. -/
structure Exit (E : List (Segment ℚ)) (K : Point ℚ → Prop) (e r : Segment ℚ) (q : Point ℚ) :
    Prop where
  mem : e ∈ E
  covers : e.Covers q
  not_corner : ¬Corner E q
  cross : e.cross r ≠ 0
  lost : ∀ᶠ ε in 𝓝[>] (0 : ℚ), K (q.shift r (-ε)) ∧ ¬K (q.shift r ε)

/-- A way that avoids all corners meets no edge it is parallel to. -/
theorem cross_ne_zero_of_meets {s : Segment ℚ} (he : e ∈ E) (hs : ∀ c, Corner E c → ¬s.Covers c)
    (hstart : ¬e.Covers s.start) (h : s.Meets e) : s.cross e ≠ 0 := by
  intro hc
  rcases end_covered_of_cross_eq_zero hc h with hp | hp | hp
  · exact hstart hp
  · exact hs _ (.inl ⟨e, he, .inl rfl⟩) hp
  · exact hs _ (.inl ⟨e, he, .inr rfl⟩) hp

/-- A way that avoids all corners meets edges in finitely many places. -/
theorem finite_hits {s : Segment ℚ} (hs : ∀ c, Corner E c → ¬s.Covers c)
    (hstart : ∀ e ∈ E, ¬e.Covers s.start) :
    {t | (0 ≤ t ∧ t ≤ 1) ∧ ∃ e ∈ E, e.Covers (s.along t)}.Finite := by
  have hone (e : Segment ℚ) (he : e ∈ E) :
      {t | (0 ≤ t ∧ t ≤ 1) ∧ e.Covers (s.along t)}.Finite := by
    apply Set.Subsingleton.finite
    rintro t ⟨⟨ht₀, ht₁⟩, ht⟩ t' ⟨⟨ht₀', ht₁'⟩, ht'⟩
    have hc : s.cross e ≠ 0 :=
      cross_ne_zero_of_meets he hs (hstart e he) ⟨_, ⟨t, ht₀, ht₁, rfl⟩, ht⟩
    have hlength : s.start ≠ s.stop := by
      intro h
      exact hc (by simp [Segment.cross, h])
    exact along_injective hlength
      (eq_of_covers hc ⟨t, ht₀, ht₁, rfl⟩ ht ⟨t', ht₀', ht₁', rfl⟩ ht')
  apply (E.finite_toSet.biUnion hone).subset
  rintro t ⟨ht, e, he, hcov⟩
  exact Set.mem_biUnion he ⟨ht, hcov⟩

/-- A steady property that holds at a point off the edges, and nowhere far to the right, is lost at
some edge. -/
theorem Steady.exists_exit {X : ℚ} (hK : Steady E K) (hp : ∀ e ∈ E, ¬e.Covers p) (hKp : K p)
    (hfar : ∀ z : Point ℚ, X ≤ z.x → ¬K z) (hE : ∀ e ∈ E, ∀ x, e.Covers x → x.x < X) :
    ∃ e r q, Exit E K e r q := by
  obtain ⟨z, hXz, -, hclear⟩ := exists_way_out (finite_corners E)
    (fun h => (Corner.exists_covers h).elim fun e he => hp e he.1 he.2) X
  let s : Segment ℚ := ⟨p, z⟩
  have hfin := finite_hits (s := s) hclear hp
  have hhits : ∀ h ∈ hfin.toFinset, 0 < h ∧ h < 1 := by
    intro h hh
    obtain ⟨⟨h₀, h₁⟩, e, he, hcov⟩ := hfin.mem_toFinset.mp hh
    constructor
    · refine h₀.lt_of_ne' ?_
      rintro rfl
      rw [s.along_zero] at hcov
      exact hp e he hcov
    · refine h₁.lt_of_ne ?_
      rintro rfl
      exact (hE e he _ hcov).not_ge (by rw [s.along_one]; exact hXz)
  have hmove : ∀ x y, 0 ≤ x → x < y → y ≤ 1 → (∀ h ∈ hfin.toFinset, x ≤ h → ¬h ≤ y) →
      K (s.along x) → K (s.along y) := by
    intro x y hx hxy hy hfree hKx
    refine hK ⟨s.along x, s.along y⟩ ?_ hKx
    rintro e he ⟨c, ⟨u, hu₀, hu₁, hu⟩, hc⟩
    rw [along_eq_along rfl rfl] at hu
    have hxu : x ≤ x + u * (y - x) := le_add_of_nonneg_right (mul_nonneg hu₀ (sub_nonneg.mpr hxy.le))
    have huy : x + u * (y - x) ≤ y := by nlinarith
    exact hfree _ (hfin.mem_toFinset.mpr ⟨⟨hx.trans hxu, huy.trans hy⟩, e, he, hu ▸ hc⟩) hxu huy
  obtain ⟨h, hh, x, y, hx, hy, hKx, hKy, honly⟩ := exists_loss hfin.toFinset hhits zero_lt_one
    (show K (s.along 0) by rwa [s.along_zero]) (show ¬K (s.along 1) by
      rw [s.along_one]; exact hfar z hXz) hmove
  obtain ⟨⟨h₀, h₁⟩, e, he, hcov⟩ := hfin.mem_toFinset.mp hh
  have hon : s.Covers (s.along h) := ⟨h, h₀, h₁, rfl⟩
  refine ⟨e, s, s.along h, he, hcov, fun hc => hclear _ hc hon, ?_, ?_⟩
  · rw [cross_swap, neg_ne_zero]
    exact cross_ne_zero_of_meets he hclear (hp e he) ⟨_, hon, hcov⟩
  · have hbefore : Set.Ioo 0 (h - x) ∈ 𝓝[>] (0 : ℚ) := Ioo_mem_nhdsGT (sub_pos.mpr hx.2)
    have hafter : Set.Ioo 0 (y - h) ∈ 𝓝[>] (0 : ℚ) := Ioo_mem_nhdsGT (sub_pos.mpr hy.1)
    filter_upwards [hbefore, hafter] with ε hε hε'
    rw [along_shift, along_shift]
    constructor
    · refine hmove x (h + -ε) hx.1 (by linarith [hε.2]) (by linarith [hε.1]) ?_ hKx
      intro h' hh' hxh hhε
      have := honly h' hh' hxh (by linarith [hε.1, hy.1])
      linarith [hε.1]
    · intro hKε
      refine hKy (hmove (h + ε) y (by linarith [hε.1]) (by linarith [hε'.2]) hy.2 ?_ hKε)
      intro h' hh' hhε hhy
      have := honly h' hh' (by linarith [hε.1, hx.2]) hhy
      linarith [hε.1]

end Exits

section Stretches

variable {K : Point ℚ → Prop} {f : Segment ℚ}

/-- A part of an edge that holds no vertex and ends away from corners. -/
structure Stretch (E : List (Segment ℚ)) (e f : Segment ℚ) : Prop where
  partOf : PartOf f e
  no_vertex : ∀ v, Vertex E v → ¬f.Covers v
  start : ¬Corner E f.start
  stop : ¬Corner E f.stop

/-- Moved off its edge, a stretch has no end in common with any edge, and crosses the same edges
inside both as before, whichever side it is moved to. -/
theorem Stretch.eventually_apart (h : Stretch E e f) (he : e ∈ E) (hr : e.cross r ≠ 0) :
    ∀ᶠ ε in 𝓝[≠] (0 : ℚ), ∀ g ∈ E,
      Apart (f.shift r ε) g ∧ crossesProperly (f.shift r ε) g = crossesProperly f g := by
  refine (eventually_all_finite E.finite_toSet).mpr fun g hg => ?_
  apply h.partOf.eventually_apart hr
  · exact ⟨h.no_vertex _ ⟨g, hg, .inl rfl⟩, h.no_vertex _ ⟨g, hg, .inr rfl⟩⟩
  · intro hc
    exact ⟨not_covers_of_not_corner h.start he hg h.partOf.start hc,
      not_covers_of_not_corner h.stop he hg h.partOf.stop hc⟩

/-- From a place on an edge that is no corner, stretches lead as close as desired to some vertex. -/
theorem exists_stretch (he : e ∈ E) (hq : e.Covers q) (hcorner : ¬Corner E q) :
    ∃ v, Vertex E v ∧ ∀ δ, 0 < δ → ∃ w, v.Near δ w ∧ Stretch E e ⟨q, w⟩ := by
  let s : Segment ℚ := ⟨q, e.stop⟩
  have hs : PartOf s e := ⟨hq, e.covers_stop⟩
  have hlength : s.start ≠ s.stop := fun heq => hcorner (.inl ⟨e, he, .inr heq⟩)
  obtain ⟨t, ⟨ht₀, ht₁⟩, hvertex, hfirst⟩ := exists_first_vertex hlength
    ⟨1, ⟨one_pos, le_rfl⟩, e, he, .inr s.along_one⟩
  refine ⟨s.along t, hvertex, ?_⟩
  intro δ hδ
  have hcorners : {x | Corner E (s.along x)}.Finite :=
    (finite_corners E).preimage fun x _ y _ => along_injective hlength
  have hclear : ∀ᶠ x in 𝓝[<] t, ¬Corner E (s.along x) :=
    ((nhdsLT_le_nhdsNE t).trans (nhdsNE_le_cofinite t)) hcorners.compl_mem_cofinite
  obtain ⟨x, ⟨hx₀, hxt⟩, hnear, hx⟩ := exists_before s ht₀ hδ hclear
  refine ⟨s.along x, hnear, ⟨hq, hs.covers ⟨x, hx₀.le, (hxt.trans_le ht₁).le, rfl⟩⟩, ?_, hcorner, hx⟩
  exact not_covers_of_no_vertex hx₀.le (fun hv => hcorner (.inl hv))
    fun y hy₀ hyx => hfirst y hy₀ (hyx.trans_lt hxt)

/-- A property of all small moves off an edge is had by those to either side. -/
theorem eventually_both_sides {P : ℚ → Prop} (h : ∀ᶠ ε in 𝓝[≠] (0 : ℚ), P ε) :
    ∀ᶠ ε in 𝓝[>] (0 : ℚ), P ε ∧ P (-ε) := by
  have hneg : Tendsto (fun ε : ℚ => -ε) (𝓝[>] 0) (𝓝[≠] 0) := by
    have := (tendsto_neg_nhdsGT (a := (0 : ℚ))).mono_right (nhdsLT_le_nhdsNE (-0))
    rwa [neg_zero] at this
  exact (h.filter_mono (nhdsGT_le_nhdsNE 0)).and (hneg.eventually h)

/-- The two ways along an edge, close to either side of it, from an exit to a vertex. -/
structure Ways (E : List (Segment ℚ)) (K : Point ℚ → Prop) (e f r : Segment ℚ) (ε : ℚ) : Prop where
  stretch : Stretch E e f
  kept : K (f.shift r (-ε)).start
  lost : ¬K (f.shift r ε).start
  apart : ∀ g ∈ E, Apart (f.shift r ε) g ∧ Apart (f.shift r (-ε)) g
  crosses : ∀ g ∈ E, crossesProperly (f.shift r ε) g = crossesProperly f g ∧
    crossesProperly (f.shift r (-ε)) g = crossesProperly f g

/-- From an exit there are ways as close to the edge, and as close to some vertex, as desired. -/
theorem Exit.exists_ways (h : Exit E K e r q) :
    ∃ v, Vertex E v ∧ ∀ δ, 0 < δ → ∃ f ε, f.start = q ∧ Ways E K e f r ε ∧
      (q.Near δ (f.shift r ε).start ∧ q.Near δ (f.shift r (-ε)).start) ∧
      v.Near δ (f.shift r ε).stop ∧ v.Near δ (f.shift r (-ε)).stop := by
  obtain ⟨v, hv, hstretch⟩ := exists_stretch h.mem h.covers h.not_corner
  refine ⟨v, hv, ?_⟩
  intro δ hδ
  obtain ⟨w, hw, hstretch⟩ := hstretch δ hδ
  have hshift {x y : Point ℚ} (hxy : x.Near δ y) : ∀ᶠ ε in 𝓝[≠] (0 : ℚ), x.Near δ (y.shift r ε) := by
    have hzero : x.Near δ (y.shift r 0) := by simpa [Point.shift] using hxy
    refine (hzero.eventually (y.shift r) ?_ ?_).filter_mono nhdsWithin_le_nhds <;>
      simp only [Point.shift] <;> fun_prop
  have hmoved := eventually_both_sides
    ((hstretch.eventually_apart h.mem h.cross).and ((hshift (Point.near_self hδ q)).and (hshift hw)))
  obtain ⟨ε, ⟨hkept, hlost⟩, ⟨hapart, hq, hw⟩, hapart', hq', hw'⟩ := (h.lost.and hmoved).exists
  refine ⟨⟨q, w⟩, ε, rfl, ⟨hstretch, hkept, hlost, ?_, ?_⟩, ⟨hq, hq'⟩, hw, hw'⟩
  · exact fun g hg => ⟨(hapart g hg).1, (hapart' g hg).1⟩
  · exact fun g hg => ⟨(hapart g hg).2, (hapart' g hg).2⟩

end Stretches

section Polygons

/-- Far enough to the right there is neither an edge nor the inside of a polygon. -/
theorem exists_beyond (a : Polygon ℚ) : ∃ X : ℚ, (∀ z : Point ℚ, X ≤ z.x → inside a z = false) ∧
    ∀ e ∈ a.edges, ∀ p, e.Covers p → p.x < X := by
  obtain ⟨M, hM⟩ := (a.ring.finite_toSet.image Point.x).bddAbove
  have hring : ∀ v ∈ a.ring, v.x ≤ M := fun v hv => hM ⟨v, hv, rfl⟩
  refine ⟨M + 1, ?_, ?_⟩
  · intro z hz
    exact inside_eq_false_of_beyond fun v hv => (hring v hv).trans (by linarith)
  · rintro e he p ⟨u, hu₀, hu₁, rfl⟩
    obtain ⟨hstart, hstop⟩ := Polygon.mem_ring_of_mem_edges he
    have hbetween := between_of_ratio e.start.x e.stop.x hu₀ hu₁
    exact (hbetween.2.trans (max_le (hring _ hstart) (hring _ hstop))).trans_lt (lt_add_one M)

/-- A vertex of the edges is one of the ring. -/
theorem mem_ring_of_vertex {a : Polygon ℚ} (h : Vertex a.edges v) : v ∈ a.ring := by
  obtain ⟨e, he, rfl | rfl⟩ := h
  · exact (Polygon.mem_ring_of_mem_edges he).1
  · exact (Polygon.mem_ring_of_mem_edges he).2

/-- The edges of two polygons do not cross if no edge of one crosses one of the other. -/
theorem edgesCross_eq_false_iff {a b : Polygon ℚ} : edgesCross a b = false ↔
    ∀ s ∈ a.edges, ∀ t ∈ b.edges, crossesProperly s t = false := by
  simp only [edgesCross, List.any_eq_false, Bool.not_eq_true]

end Polygons

end Planar

end SpatialSql
