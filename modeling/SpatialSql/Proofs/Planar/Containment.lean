import SpatialSql.Proofs.Planar.Arrangement

/-!
# What the containment of polygons guarantees

One polygon is taken to contain another when no edges cross, and all vertices and midpoints of
the second are covered by the first. The vertices of the first are not looked at. With exact
coordinates this is the only gap: if the first polygon does not cross itself, it covers every
point of the second exactly if it does so near each of its own vertices. The gap is real. A
notch whose corners lie on the vertices and on a midpoint of the other polygon is not noticed.
-/

namespace SpatialSql.Planar

open Segment Filter Topology

variable {a b : Polygon ℚ} {e f : Segment ℚ} {p : Point ℚ}

/-- Close to the point, whatever `b` covers is covered by `a`. -/
def CoversNear (a b : Polygon ℚ) (v : Point ℚ) : Prop :=
  ∃ δ, 0 < δ ∧ ∀ p, v.Near δ p → coversPoint b p = true → coversPoint a p = true

/-- A point that is not covered is off the boundary and outside. -/
theorem coversPoint_eq_false_iff :
    coversPoint a p = false ↔ (∀ e ∈ a.edges, ¬e.Covers p) ∧ inside a p = false := by
  rw [← Bool.not_eq_true, coversPoint_iff, not_or, Bool.not_eq_true]
  simp only [not_exists, not_and]

/-- A move that starts outside a polygon and touches no edge of it stays outside. -/
theorem coversPoint_eq_false_of_not_meets (ha : a.Closed) (h : ∀ e ∈ a.edges, ¬f.Meets e)
    (hstart : coversPoint a f.start = false) : coversPoint a f.stop = false := by
  rw [coversPoint_eq_false_iff] at hstart ⊢
  refine ⟨fun e he hcov => h e he ⟨_, f.covers_stop, hcov⟩, ?_⟩
  rw [← inside_eq_of_not_meets ha h, hstart.2]

theorem midpoint_eq_along (s : Segment ℚ) : midpoint s = s.along (1 / 2) := by
  have htwo : (Coordinate.ofInt 2 : ℚ) = 2 := rfl
  ext
  · simp only [midpoint, along, htwo]
    ring
  · simp only [midpoint, along, htwo]
    ring

section Edges

variable {s : Segment ℚ} {x : ℚ}

/-- A walk along a segment that starts outside the polygon, and past its start keeps away from the
ends of the segment. -/
structure WalkFrom (a : Polygon ℚ) (e s : Segment ℚ) : Prop where
  partOf : PartOf s e
  inner : ∀ x, 0 < x → x ≤ 1 → s.along x ≠ e.start ∧ s.along x ≠ e.stop
  outside : coversPoint a s.start = false

/-- Along a segment that no edge crosses, a walk stays outside until it comes to a vertex. -/
theorem WalkFrom.coversPoint_eq_false (h : WalkFrom a e s) (ha : a.Closed)
    (hcross : ∀ g ∈ a.edges, crossesProperly e g = false) (hx₀ : 0 < x) (hx₁ : x ≤ 1)
    (hfree : ∀ y, 0 < y → y ≤ x → ¬Vertex a.edges (s.along y)) :
    coversPoint a (s.along x) = false := by
  obtain ⟨hoff, -⟩ := coversPoint_eq_false_iff.mp h.outside
  have hstart : ¬Vertex a.edges s.start := by
    intro hv
    obtain ⟨g, hg, hcov⟩ := Corner.exists_covers (.inl hv)
    exact hoff g hg hcov
  have hends := not_covers_of_no_vertex hx₀.le hstart hfree
  have hpart : PartOf ⟨s.start, s.along x⟩ e :=
    ⟨h.partOf.start, h.partOf.covers ⟨x, hx₀.le, hx₁, rfl⟩⟩
  refine coversPoint_eq_false_of_not_meets (f := ⟨s.start, s.along x⟩) ha (fun g hg => ?_) h.outside
  exact hpart.not_meets (hcross g hg) ⟨hends _ ⟨g, hg, .inl rfl⟩, hends _ ⟨g, hg, .inr rfl⟩⟩ (hoff g hg)
    (h.inner x hx₀ hx₁)

/-- A walk that ends at a covered point comes to a vertex, and up to there it is outside. -/
theorem WalkFrom.exists_vertex (h : WalkFrom a e s) (ha : a.Closed)
    (hcross : ∀ g ∈ a.edges, crossesProperly e g = false) (hstop : coversPoint a s.stop = true) :
    ∃ v ∈ a.ring, ∀ δ, 0 < δ → ∃ p, v.Near δ p ∧ s.Covers p ∧ coversPoint a p = false := by
  have hlength : s.start ≠ s.stop := by
    intro heq
    have hout := h.outside
    rw [heq, hstop] at hout
    contradiction
  have hmet : ∃ x, (0 < x ∧ x ≤ 1) ∧ Vertex a.edges (s.along x) := by
    by_contra hnone
    have hout := h.coversPoint_eq_false ha hcross one_pos le_rfl
      fun y hy₀ hy₁ hv => hnone ⟨y, ⟨hy₀, hy₁⟩, hv⟩
    rw [s.along_one, hstop] at hout
    contradiction
  obtain ⟨x, ⟨hx₀, hx₁⟩, hvertex, hfirst⟩ := exists_first_vertex hlength hmet
  refine ⟨_, mem_ring_of_vertex hvertex, ?_⟩
  intro δ hδ
  obtain ⟨y, ⟨hy₀, hyx⟩, hy, -⟩ := exists_before s hx₀ hδ (.of_forall fun _ => trivial)
  have hy₁ := hyx.le.trans hx₁
  exact ⟨s.along y, hy, ⟨y, hy₀.le, hy₁, rfl⟩, h.coversPoint_eq_false ha hcross hy₀ hy₁
    fun z hz₀ hzy => hfirst z hz₀ (hzy.trans_lt hyx)⟩

/-- From anywhere on a segment, the walk to its midpoint keeps away from the ends. -/
theorem walkFrom_midpoint (hp : e.Covers p) (hout : coversPoint a p = false)
    (hmid : coversPoint a (midpoint e) = true) : WalkFrom a e ⟨p, midpoint e⟩ := by
  obtain ⟨t, ht₀, ht₁, rfl⟩ := hp
  rw [midpoint_eq_along] at hmid ⊢
  have hlength : e.start ≠ e.stop := by
    intro heq
    have hsame : e.along t = e.along (1 / 2) := by simp [along, heq]
    rw [hsame, hmid] at hout
    contradiction
  refine ⟨⟨⟨t, ht₀, ht₁, rfl⟩, ⟨1 / 2, by norm_num, by norm_num, rfl⟩⟩, ?_, hout⟩
  intro x hx₀ hx₁
  rw [along_eq_along rfl rfl]
  have hinner : 0 < t + x * (1 / 2 - t) ∧ t + x * (1 / 2 - t) < 1 := by
    constructor <;> nlinarith
  constructor
  · intro heq
    exact hinner.1.ne' (along_injective hlength (heq.trans e.along_zero.symm))
  · intro heq
    exact hinner.2.ne (along_injective hlength (heq.trans e.along_one.symm))

/-- An edge of another polygon that no edge crosses, and whose midpoint is covered, is covered as a
whole if it is near the vertices. -/
theorem coversPoint_of_edge (ha : a.Closed) (he : e ∈ b.edges)
    (hcross : ∀ g ∈ a.edges, crossesProperly e g = false)
    (hmid : coversPoint a (midpoint e) = true) (hnear : ∀ v ∈ a.ring, CoversNear a b v)
    (hp : e.Covers p) : coversPoint a p = true := by
  by_contra hout
  rw [Bool.not_eq_true] at hout
  have hwalk := walkFrom_midpoint hp hout hmid
  obtain ⟨v, hv, hclose⟩ := hwalk.exists_vertex ha hcross hmid
  obtain ⟨δ, hδ, hcovers⟩ := hnear v hv
  obtain ⟨x, hx, hsx, hxout⟩ := hclose δ hδ
  rw [hcovers x hx (coversPoint_iff.mpr (.inl ⟨e, he, hwalk.partOf.covers hsx⟩))] at hxout
  contradiction

end Edges

section Regions

/-- The point lies inside `b` and not inside `a`. -/
def Uncovered (a b : Polygon ℚ) (p : Point ℚ) : Prop := inside a p = false ∧ inside b p = true

/-- If the edges of `b` are covered, moves that touch no edge of `a` do not leave the part of `b` that
is outside `a`. -/
theorem steady_uncovered (ha : a.Closed) (hb : b.Closed)
    (hedges : ∀ e ∈ b.edges, ∀ p, e.Covers p → coversPoint a p = true) :
    Steady a.edges (Uncovered a b) := by
  rintro s hs ⟨hsa, hsb⟩
  have hout : coversPoint a s.start = false :=
    coversPoint_eq_false_iff.mpr ⟨fun e he hcov => hs e he ⟨_, s.covers_start, hcov⟩, hsa⟩
  have hclear : ∀ e ∈ b.edges, ¬s.Meets e := by
    rintro e he ⟨p, hsp, hep⟩
    have hpart : PartOf ⟨s.start, p⟩ s := ⟨s.covers_start, hsp⟩
    have hp := coversPoint_eq_false_of_not_meets (f := ⟨s.start, p⟩) ha
      (fun g hg ⟨x, hx, hgx⟩ => hs g hg ⟨x, hpart.covers hx, hgx⟩) hout
    rw [hedges e he p hep] at hp
    contradiction
  exact ⟨(inside_eq_of_not_meets ha hs).symm.trans hsa, (inside_eq_of_not_meets hb hclear).symm.trans hsb⟩

/-- Where `b` reaches out of `a`, while all its edges are covered, it does so near a vertex of `a`.
No edge of `a` crosses another one, so nothing is met on the way back along it. -/
theorem not_uncovered (ha : a.Closed) (hb : b.Closed) (hself : edgesCross a a = false)
    (hedges : ∀ e ∈ b.edges, ∀ p, e.Covers p → coversPoint a p = true)
    (hnear : ∀ v ∈ a.ring, CoversNear a b v) (hp : ∀ e ∈ a.edges, ¬e.Covers p) : ¬Uncovered a b p := by
  intro hout
  obtain ⟨X, -, hXa⟩ := exists_beyond a
  obtain ⟨Y, hYb, -⟩ := exists_beyond b
  have hsteady := steady_uncovered ha hb hedges
  have hfar : ∀ z : Point ℚ, max X Y ≤ z.x → ¬Uncovered a b z := by
    rintro z hz ⟨-, hzb⟩
    rw [hYb z ((le_max_right X Y).trans hz)] at hzb
    contradiction
  obtain ⟨e, r, q, hexit⟩ := hsteady.exists_exit hp hout hfar
    fun g hg x hx => (hXa g hg x hx).trans_le (le_max_left X Y)
  obtain ⟨v, hv, hways⟩ := hexit.exists_ways
  obtain ⟨δ, hδ, hcovers⟩ := hnear v (mem_ring_of_vertex hv)
  obtain ⟨f, ε, -, hway, -, -, hstop⟩ := hways δ hδ
  have hclear : ∀ g ∈ a.edges, ¬(f.shift r (-ε)).Meets g := by
    intro g hg hmeet
    have hx := (hway.apart g hg).2.crossesProperly_iff_meets.mpr hmeet
    rw [(hway.crosses g hg).2] at hx
    have hfree := edgesCross_eq_false_iff.mp hself e hexit.mem g hg
    rw [hway.stretch.partOf.crosses_whole hx] at hfree
    contradiction
  obtain ⟨hfa, hfb⟩ := hsteady _ hclear hway.kept
  have hcov := hcovers _ hstop (coversPoint_iff.mpr (.inr hfb))
  rw [coversPoint_eq_false_iff.mpr ⟨fun g hg => (hway.apart g hg).2.stop_off, hfa⟩] at hcov
  contradiction

end Regions

section Containment

/-- What the containment of polygons checks: edges that do not cross and covered samples. -/
theorem samples_of_polygonContains (h : polygonContains a b = true) :
    (∀ s ∈ a.edges, ∀ t ∈ b.edges, crossesProperly s t = false) ∧
      ∀ p ∈ samples b, coversPoint a p = true := by
  simp only [polygonContains, Bool.and_eq_true, Bool.not_eq_true'] at h
  exact ⟨edgesCross_eq_false_iff.mp h.1.1, List.all_eq_true.mp h.1.2⟩

/-- The containment of polygons keeps what it promises, that no point of the second lies outside the
first, exactly if this holds near the vertices of the first. -/
theorem polygonContains_sound_iff {points : List (Point ℚ)} {others : List (Point ℚ)}
    (ha : Polygon.ofPoints? points = some a) (hb : Polygon.ofPoints? others = some b)
    (hself : edgesCross a a = false) (h : polygonContains a b = true) :
    (∀ p, coversPoint b p = true → coversPoint a p = true) ↔ ∀ v ∈ a.ring, CoversNear a b v := by
  constructor
  · intro hsound v _
    exact ⟨1, one_pos, fun p _ => hsound p⟩
  · intro hnear p hbp
    have ha := Polygon.closed_of_ofPoints? ha
    have hb := Polygon.closed_of_ofPoints? hb
    obtain ⟨hcross, hsamples⟩ := samples_of_polygonContains h
    have hedges : ∀ e ∈ b.edges, ∀ p, e.Covers p → coversPoint a p = true := by
      intro e he p hp
      have hmid := hsamples _ (List.mem_append_right _ (List.mem_map_of_mem he))
      refine coversPoint_of_edge ha he (fun g hg => ?_) hmid hnear hp
      rw [crossesProperly_comm]
      exact hcross g hg e he
    by_contra hout
    rw [Bool.not_eq_true, coversPoint_eq_false_iff] at hout
    rcases coversPoint_iff.mp hbp with ⟨e, he, hp⟩ | hin
    · have hcov := hedges e he p hp
      rw [coversPoint_eq_false_iff.mpr hout] at hcov
      contradiction
    · exact not_uncovered ha hb hself hedges hnear hout.1 ⟨hout.2, hin⟩

/-- A polygon with a notch between its corners at (4, 2), (3, 1) and (1, 3). -/
def notched : Polygon ℚ := ⟨[⟨0, 0⟩, ⟨8, 0⟩, ⟨8, 4⟩, ⟨4, 2⟩, ⟨3, 1⟩, ⟨1, 3⟩, ⟨0, 0⟩]⟩

/-- A rectangle over the notch. Its upper edge has a corner of the notch as midpoint and ends on the
other side of the notch. -/
def block : Polygon ℚ := ⟨[⟨2, 0⟩, ⟨6, 0⟩, ⟨6, 2⟩, ⟨2, 2⟩, ⟨2, 0⟩]⟩

/-- Neither polygon crosses itself, the notched one is taken to contain the rectangle, and a point in
the notch is covered by the rectangle alone. -/
theorem block_over_notch :
    (Polygon.ofPoints? notched.ring.dropLast = some notched ∧ edgesCross notched notched = false) ∧
      (Polygon.ofPoints? block.ring.dropLast = some block ∧ edgesCross block block = false) ∧
      polygonContains notched block = true ∧
      coversPoint block ⟨3, 3 / 2⟩ = true ∧ coversPoint notched ⟨3, 3 / 2⟩ = false := by
  decide +kernel

/-- The notched polygon is taken to contain the rectangle, which leaves it near one of its vertices. -/
theorem polygonContains_sound_iff_notched :
    polygonContains notched block = true ∧ ∃ v ∈ notched.ring, ¬CoversNear notched block v := by
  obtain ⟨⟨hnotched, hself⟩, ⟨hblock, -⟩, hcontains, hin, hout⟩ := block_over_notch
  refine ⟨hcontains, ?_⟩
  have hunsound : ¬∀ p, coversPoint block p = true → coversPoint notched p = true := by
    intro hsound
    rw [hsound _ hin] at hout
    contradiction
  rw [polygonContains_sound_iff hnotched hblock hself hcontains] at hunsound
  push Not at hunsound
  exact hunsound

/-- Of polygons that do not cross themselves, one may be taken to contain another that has a point
outside it. -/
theorem not_forall_polygonContains_sound :
    ¬∀ (points others : List (Point ℚ)) (a b : Polygon ℚ), Polygon.ofPoints? points = some a →
      Polygon.ofPoints? others = some b → edgesCross a a = false → edgesCross b b = false →
      polygonContains a b = true → ∀ p, coversPoint b p = true → coversPoint a p = true := by
  intro hsound
  obtain ⟨⟨hnotched, hself⟩, ⟨hblock, hself'⟩, hcontains, hin, hout⟩ := block_over_notch
  rw [hsound _ _ _ _ hnotched hblock hself hself' hcontains _ hin] at hout
  contradiction

end Containment

end SpatialSql.Planar
