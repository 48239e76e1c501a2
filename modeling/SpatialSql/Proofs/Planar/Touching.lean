import SpatialSql.Proofs.Planar.Arrangement

/-!
# What it means for polygons to touch

Polygons are taken to touch when they meet, no edges cross, and no vertex or midpoint of one
lies inside the other. With exact coordinates this leaves one gap: a point inside both shows
up near some vertex that lies on both boundaries. So the interiors are disjoint exactly if
they are so near these vertices. The gap is real. Two slanted strips whose corners lie on the
edges of each other overlap in a square without being noticed.
-/

namespace SpatialSql.Planar

open Segment Filter Topology

variable {a b : Polygon ℚ} {e f g r : Segment ℚ} {p q v : Point ℚ}

section Near

/-- Around a point off a segment there is a square that the segment does not reach, seen from the
point. -/
theorem eventually_not_meets_near (h : ¬g.Covers v) :
    ∀ᶠ x in 𝓝 v.x ×ˢ 𝓝 v.y, ¬(⟨v, ⟨x.1, x.2⟩⟩ : Segment ℚ).Meets g := by
  have hclosed : IsClosed {x : ℚ × ℚ | (⟨v, ⟨x.1, x.2⟩⟩ : Segment ℚ).Meets g} := by
    apply isClosed_meets <;> fun_prop
  rw [← nhds_prod_eq]
  apply hclosed.isOpen_compl.mem_nhds
  rintro ⟨x, ⟨u, -, -, hu⟩, hx⟩
  have hux : v = x := by
    rw [← hu]
    ext <;> simp [along]
  exact h (hux ▸ hx)

/-- Near a point off the boundary, all points are on the same side as it. -/
theorem exists_near_side (ha : a.Closed) (v : Point ℚ) :
    ∃ δ, 0 < δ ∧ ((∀ e ∈ a.edges, ¬e.Covers v) → ∀ p, v.Near δ p → inside a p = inside a v) := by
  by_cases h : ∀ e ∈ a.edges, ¬e.Covers v
  swap
  · exact ⟨1, one_pos, fun h' => absurd h' h⟩
  have hclear : ∀ᶠ x in 𝓝 v.x ×ˢ 𝓝 v.y, ∀ e ∈ a.edges, ¬(⟨v, ⟨x.1, x.2⟩⟩ : Segment ℚ).Meets e :=
    (eventually_all_finite a.edges.finite_toSet).mpr fun e he => eventually_not_meets_near (h e he)
  obtain ⟨P, hP, Q, hQ, hPQ⟩ := eventually_prod_iff.mp hclear
  obtain ⟨δ, hδ, hx⟩ := (nhds_basis_abs_sub_lt v.x).eventually_iff.mp hP
  obtain ⟨δ', hδ', hy⟩ := (nhds_basis_abs_sub_lt v.y).eventually_iff.mp hQ
  refine ⟨min δ δ', lt_min hδ hδ', ?_⟩
  intro _ p hp
  have hmove := hPQ (hx (hp.1.trans_le (min_le_left δ δ'))) (hy (hp.2.trans_le (min_le_right δ δ')))
  exact (inside_eq_of_not_meets ha hmove).symm

end Near

section Stretches

variable {E : List (Segment ℚ)}

/-- A stretch that an edge of `a` crosses has no edge of `b` on it, which that edge would cross too. -/
theorem not_covers_of_crossed (hab : edgesCross a b = false) (hE : ∀ g ∈ b.edges, g ∈ E) (he : e ∈ E)
    (hf : Stretch E e f) (h : oddly (crossesProperly f) a.edges = true) :
    ∀ g ∈ b.edges, ¬g.Covers f.start := by
  intro g hg hcov
  have hc : e.cross g = 0 := by
    by_contra hc
    exact not_covers_of_not_corner hf.start he (hE g hg) hf.partOf.start hc hcov
  have hpart : PartOf f g := hf.partOf.of_parallel hc hcov
    ⟨hf.no_vertex _ ⟨g, hE g hg, .inl rfl⟩, hf.no_vertex _ ⟨g, hE g hg, .inr rfl⟩⟩
  have hfree : oddly (crossesProperly f) a.edges = false := by
    apply oddly_eq_false
    intro x hx
    rw [← Bool.not_eq_true]
    intro hcross
    have hgx := edgesCross_eq_false_iff.mp hab x hx g hg
    rw [crossesProperly_comm, hpart.crosses_whole hcross] at hgx
    contradiction
  rw [hfree] at h
  contradiction

/-- A stretch is crossed by edges of one of the polygons at most, the one whose edge it lies on. -/
theorem crossed_once (hab : edgesCross a b = false) (hEa : ∀ g ∈ a.edges, g ∈ E)
    (hEb : ∀ g ∈ b.edges, g ∈ E) (he : e ∈ a.edges ∨ e ∈ b.edges) (hf : Stretch E e f)
    (h : oddly (crossesProperly f) a.edges = true) :
    (∀ g ∈ b.edges, ¬g.Covers f.start) ∧ oddly (crossesProperly f) b.edges = false := by
  have hE : e ∈ E := he.elim (hEa e) (hEb e)
  have hoff := not_covers_of_crossed hab hEb hE hf h
  refine ⟨hoff, ?_⟩
  rw [← Bool.not_eq_true]
  intro h'
  rw [edgesCross_comm] at hab
  rcases he with he | he
  · exact not_covers_of_crossed hab hEa hE hf h' e he hf.partOf.start
  · exact hoff e he hf.partOf.start

/-- Where edges of `a` cross a stretch, `b` has the same side all around its start, and no edges of `b`
cross the stretch. -/
theorem inside_eq_of_crossed {δ : ℚ} (hab : edgesCross a b = false) (hEa : ∀ g ∈ a.edges, g ∈ E)
    (hEb : ∀ g ∈ b.edges, g ∈ E) (he : e ∈ a.edges ∨ e ∈ b.edges) (hf : Stretch E e f)
    (hside : (∀ g ∈ b.edges, ¬g.Covers f.start) →
      ∀ p, f.start.Near δ p → inside b p = inside b f.start)
    (hp : f.start.Near δ p) (hq : f.start.Near δ q) (h : oddly (crossesProperly f) a.edges = true) :
    inside b p = inside b q ∧ oddly (crossesProperly f) b.edges = false := by
  obtain ⟨hoff, hnone⟩ := crossed_once hab hEa hEb he hf h
  exact ⟨(hside hoff p hp).trans (hside hoff q hq).symm, hnone⟩

/-- Along the ways from an exit, what changes on one side of a closed ring changes on the other. -/
theorem inside_ways {K : Point ℚ → Prop} {ε : ℚ} (ha : a.Closed) (hE : ∀ g ∈ a.edges, g ∈ E)
    (h : Ways E K e f r ε) :
    (inside a (f.shift r ε).start != inside a (f.shift r ε).stop) =
        oddly (crossesProperly f) a.edges ∧
      (inside a (f.shift r (-ε)).start != inside a (f.shift r (-ε)).stop) =
        oddly (crossesProperly f) a.edges := by
  constructor
  · rw [inside_bne_inside ha fun g hg => (h.apart g (hE g hg)).1]
    exact oddly_congr fun g hg => (h.crosses g (hE g hg)).1
  · rw [inside_bne_inside ha fun g hg => (h.apart g (hE g hg)).2]
    exact oddly_congr fun g hg => (h.crosses g (hE g hg)).2

/-- Two states that agree on one side of an edge, and change alike on both sides along it, agree again
on one of the sides at the end, if a change of one state keeps the other from changing across. -/
theorem common_at_end {a₁ a₂ b₁ b₂ a₁' a₂' b₁' b₂' x y : Bool} (ha₁ : a₁ = true) (hb₁ : b₁ = true)
    (h₂ : ¬(a₂ = true ∧ b₂ = true)) (hax : (a₁ != a₁') = x ∧ (a₂ != a₂') = x)
    (hby : (b₁ != b₁') = y ∧ (b₂ != b₂') = y) (hx : x = true → b₂ = b₁ ∧ y = false)
    (hy : y = true → a₂ = a₁ ∧ x = false) :
    (a₁' = true ∧ b₁' = true) ∨ (a₂' = true ∧ b₂' = true) := by
  subst ha₁ hb₁
  cases x <;> cases y <;> simp_all

end Stretches

section Interiors

/-- Off the edges, the point lies inside both polygons. -/
def Common (a b : Polygon ℚ) (p : Point ℚ) : Prop := inside a p = true ∧ inside b p = true

/-- An end that is off every edge is contained if its ray says so. -/
theorem containsPoint_of_apart (h : ∀ g ∈ a.edges, Apart f g) (hin : inside a f.stop = true) :
    containsPoint a f.stop = true :=
  containsPoint_iff.mpr ⟨fun g hg => (h g hg).stop_off, hin⟩

/-- Whether a point is common to both polygons does not change between the edges. -/
theorem steady_common (ha : a.Closed) (hb : b.Closed) : Steady (a.edges ++ b.edges) (Common a b) := by
  rintro s hs ⟨hsa, hsb⟩
  have hmeets (g : Segment ℚ) (hg : g ∈ a.edges ∨ g ∈ b.edges) : ¬s.Meets g :=
    hs g (List.mem_append.mpr hg)
  exact ⟨(inside_eq_of_not_meets ha fun g hg => hmeets g (.inl hg)).symm.trans hsa,
    (inside_eq_of_not_meets hb fun g hg => hmeets g (.inr hg)).symm.trans hsb⟩

/-- From where the common inside of two polygons without crossing edges is left, it is found again
near some vertex, on one side of the edge or the other. -/
theorem exists_common_near (ha : a.Closed) (hb : b.Closed) (hab : edgesCross a b = false)
    (hexit : Exit (a.edges ++ b.edges) (Common a b) e r q) :
    ∃ v, Vertex (a.edges ++ b.edges) v ∧ ∀ δ, 0 < δ →
      ∃ p, v.Near δ p ∧ containsPoint a p = true ∧ containsPoint b p = true := by
  have hEa : ∀ g ∈ a.edges, g ∈ a.edges ++ b.edges := fun g => List.mem_append_left _
  have hEb : ∀ g ∈ b.edges, g ∈ a.edges ++ b.edges := fun g => List.mem_append_right _
  obtain ⟨δa, hδa, hsidea⟩ := exists_near_side ha q
  obtain ⟨δb, hδb, hsideb⟩ := exists_near_side hb q
  obtain ⟨v, hv, hways⟩ := hexit.exists_ways
  refine ⟨v, hv, ?_⟩
  intro δ hδ
  obtain ⟨f, ε, rfl, hway, ⟨hstart, hstart'⟩, hstop, hstop'⟩ :=
    hways (min δ (min δa δb)) (lt_min hδ (lt_min hδa hδb))
  have hab' : edgesCross b a = false := by rwa [edgesCross_comm]
  have hmem := List.mem_append.mp hexit.mem
  have hlea : min δ (min δa δb) ≤ δa := (min_le_right _ _).trans (min_le_left _ _)
  have hleb : min δ (min δa δb) ≤ δb := (min_le_right _ _).trans (min_le_right _ _)
  have hacross := inside_eq_of_crossed hab hEa hEb hmem hway.stretch hsideb (hstart.mono hleb)
    (hstart'.mono hleb)
  have hbcross := inside_eq_of_crossed hab' hEb hEa hmem.symm hway.stretch hsidea (hstart.mono hlea)
    (hstart'.mono hlea)
  have hwaysa := inside_ways ha hEa hway
  have hwaysb := inside_ways hb hEb hway
  rcases common_at_end hway.kept.1 hway.kept.2 hway.lost hwaysa.symm hwaysb.symm hacross hbcross with
    ⟨hina, hinb⟩ | ⟨hina, hinb⟩
  · exact ⟨_, hstop'.mono (min_le_left _ _),
      containsPoint_of_apart (fun g hg => (hway.apart g (hEa g hg)).2) hina,
      containsPoint_of_apart (fun g hg => (hway.apart g (hEb g hg)).2) hinb⟩
  · exact ⟨_, hstop.mono (min_le_left _ _),
      containsPoint_of_apart (fun g hg => (hway.apart g (hEa g hg)).1) hina,
      containsPoint_of_apart (fun g hg => (hway.apart g (hEb g hg)).1) hinb⟩

/-- A point with points inside a polygon as near as desired is inside or on the boundary. -/
theorem onBoundary_of_near (ha : a.Closed) (h : containsPoint a v = false)
    (hnear : ∀ δ, 0 < δ → ∃ p, v.Near δ p ∧ containsPoint a p = true) : onBoundary a v = true := by
  by_contra hoff
  have hclear : ∀ e ∈ a.edges, ¬e.Covers v :=
    fun e he hcov => hoff (onBoundary_iff.mpr ⟨e, he, hcov⟩)
  obtain ⟨δ, hδ, hside⟩ := exists_near_side ha v
  obtain ⟨p, hp, hin⟩ := hnear δ hδ
  have hv : containsPoint a v = true :=
    containsPoint_iff.mpr ⟨hclear, (hside hclear p hp).symm.trans (containsPoint_iff.mp hin).2⟩
  rw [h] at hv
  contradiction

end Interiors

section Touching

/-- Close to the point, nothing lies inside both polygons. -/
def DisjointNear (a b : Polygon ℚ) (v : Point ℚ) : Prop :=
  ∃ δ, 0 < δ ∧ ∀ p, v.Near δ p → ¬(containsPoint a p = true ∧ containsPoint b p = true)

/-- What is checked of polygons that touch: edges that do not cross, and no vertex of one inside the
other. -/
theorem vertices_of_polygonsTouch (h : polygonsTouch a b = true) :
    edgesCross a b = false ∧ (∀ v ∈ b.ring, containsPoint a v = false) ∧
      ∀ v ∈ a.ring, containsPoint b v = false := by
  simp only [polygonsTouch, interiorsMeet, Bool.and_eq_true, Bool.not_eq_true', Bool.or_eq_false_iff,
    List.any_eq_false, Bool.not_eq_true] at h
  obtain ⟨-, ⟨⟨⟨hcross, hb⟩, ha⟩, -⟩, -⟩ := h
  exact ⟨hcross, fun v hv => hb v (List.mem_append_left _ hv),
    fun v hv => ha v (List.mem_append_left _ hv)⟩

theorem onBoundary_of_vertex (h : Vertex a.edges v) : onBoundary a v = true :=
  onBoundary_iff.mpr (Corner.exists_covers (.inl h))

/-- Polygons that touch keep what they promise, that no point lies inside both, exactly if this holds
near the vertices that lie on both boundaries. -/
theorem polygonsTouch_sound_iff {points : List (Point ℚ)} {others : List (Point ℚ)}
    (ha : Polygon.ofPoints? points = some a) (hb : Polygon.ofPoints? others = some b)
    (h : polygonsTouch a b = true) :
    (∀ p, ¬(containsPoint a p = true ∧ containsPoint b p = true)) ↔
      ∀ v ∈ a.ring ++ b.ring, onBoundary a v = true → onBoundary b v = true → DisjointNear a b v := by
  constructor
  · intro hsound v _ _ _
    exact ⟨1, one_pos, fun p _ => hsound p⟩
  · rintro hnear p ⟨hpa, hpb⟩
    have ha := Polygon.closed_of_ofPoints? ha
    have hb := Polygon.closed_of_ofPoints? hb
    obtain ⟨hab, hvb, hva⟩ := vertices_of_polygonsTouch h
    rw [containsPoint_iff] at hpa hpb
    obtain ⟨X, hX, hXa⟩ := exists_beyond a
    obtain ⟨Y, -, hYb⟩ := exists_beyond b
    have hoff : ∀ g ∈ a.edges ++ b.edges, ¬g.Covers p := by
      intro g hg
      rcases List.mem_append.mp hg with hg | hg
      · exact hpa.1 g hg
      · exact hpb.1 g hg
    have hfar : ∀ z : Point ℚ, max X Y ≤ z.x → ¬Common a b z := by
      rintro z hz ⟨hza, -⟩
      rw [hX z ((le_max_left X Y).trans hz)] at hza
      contradiction
    have hbound : ∀ g ∈ a.edges ++ b.edges, ∀ x, g.Covers x → x.x < max X Y := by
      intro g hg x hx
      rcases List.mem_append.mp hg with hg | hg
      · exact (hXa g hg x hx).trans_le (le_max_left X Y)
      · exact (hYb g hg x hx).trans_le (le_max_right X Y)
    obtain ⟨e, r, q, hexit⟩ := (steady_common ha hb).exists_exit hoff ⟨hpa.2, hpb.2⟩ hfar hbound
    obtain ⟨v, hv, hcommon⟩ := exists_common_near ha hb hab hexit
    have hneara : ∀ δ, 0 < δ → ∃ p, v.Near δ p ∧ containsPoint a p = true := fun δ hδ =>
      (hcommon δ hδ).imp fun p hp => ⟨hp.1, hp.2.1⟩
    have hnearb : ∀ δ, 0 < δ → ∃ p, v.Near δ p ∧ containsPoint b p = true := fun δ hδ =>
      (hcommon δ hδ).imp fun p hp => ⟨hp.1, hp.2.2⟩
    have hdisjoint : DisjointNear a b v := by
      rcases vertex_append.mp hv with hv | hv
      · have hmem := mem_ring_of_vertex hv
        exact hnear v (List.mem_append_left _ hmem) (onBoundary_of_vertex hv)
          (onBoundary_of_near hb (hva v hmem) hnearb)
      · have hmem := mem_ring_of_vertex hv
        exact hnear v (List.mem_append_right _ hmem) (onBoundary_of_near ha (hvb v hmem) hneara)
          (onBoundary_of_vertex hv)
    obtain ⟨δ, hδ, hdisjoint⟩ := hdisjoint
    obtain ⟨x, hx, hboth⟩ := hcommon δ hδ
    exact hdisjoint x hx hboth

/-- A strip that leans to the left. -/
def lying : Polygon ℚ := ⟨[⟨-1, -1⟩, ⟨3, -1⟩, ⟨1, 1⟩, ⟨-3, 1⟩, ⟨-1, -1⟩]⟩

/-- A strip across the first one. Each has two corners at midpoints of edges of the other. -/
def standing : Polygon ℚ := ⟨[⟨1, -1⟩, ⟨1, 3⟩, ⟨-1, 1⟩, ⟨-1, -3⟩, ⟨1, -1⟩]⟩

/-- The strips are taken to touch, and the centre of the square they share lies inside both. -/
theorem strips_share_centre :
    (Polygon.ofPoints? lying.ring.dropLast = some lying ∧
      Polygon.ofPoints? standing.ring.dropLast = some standing) ∧
      polygonsTouch lying standing = true ∧
      containsPoint lying ⟨0, 0⟩ = true ∧ containsPoint standing ⟨0, 0⟩ = true := by
  decide +kernel

/-- The strips are taken to touch, while their interiors meet near a vertex on both boundaries. -/
theorem polygonsTouch_sound_iff_strips :
    polygonsTouch lying standing = true ∧ ∃ v ∈ lying.ring ++ standing.ring,
      onBoundary lying v = true ∧ onBoundary standing v = true ∧ ¬DisjointNear lying standing v := by
  obtain ⟨⟨hlying, hstanding⟩, htouch, hcentre⟩ := strips_share_centre
  refine ⟨htouch, ?_⟩
  have hunsound : ¬∀ p, ¬(containsPoint lying p = true ∧ containsPoint standing p = true) :=
    fun hsound => hsound _ hcentre
  rw [polygonsTouch_sound_iff hlying hstanding htouch] at hunsound
  push Not at hunsound
  exact hunsound

/-- Polygons may be taken to touch although a point lies inside both. -/
theorem not_forall_polygonsTouch_sound :
    ¬∀ (points others : List (Point ℚ)) (a b : Polygon ℚ), Polygon.ofPoints? points = some a →
      Polygon.ofPoints? others = some b → polygonsTouch a b = true →
      ∀ p, ¬(containsPoint a p = true ∧ containsPoint b p = true) := by
  intro hsound
  obtain ⟨⟨hlying, hstanding⟩, htouch, hcentre⟩ := strips_share_centre
  exact hsound _ _ _ _ hlying hstanding htouch _ hcentre

end Touching

end SpatialSql.Planar
