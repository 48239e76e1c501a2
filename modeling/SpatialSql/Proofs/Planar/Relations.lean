import SpatialSql.Planar.Polygon
import SpatialSql.Proofs.Planar.Exact

/-!
# How polygons are related

The relations between polygons are computed from different ingredients: crossings of edges,
vertices and midpoints, rays and areas. They fit together all the same. Polygons that meet
overlap unless one contains the other, and polygons that touch overlap. No law of arithmetic
is used, so this holds of doubles as well, rounded or undefined.
-/

namespace SpatialSql.Planar

variable {α : Type} [Coordinate α]

omit [Coordinate α] in
/-- Some pair of items from two lists passes a test, whichever list is walked first. -/
theorem any_any_comm {β γ : Type} {f : β → γ → Bool} {g : γ → β → Bool} (h : ∀ x y, f x y = g y x)
    (xs : List β) (ys : List γ) :
    (xs.any fun x => ys.any fun y => f x y) = ys.any fun y => xs.any fun x => g y x := by
  rw [Bool.eq_iff_iff]
  simp only [List.any_eq_true, h]
  constructor
  · rintro ⟨x, hx, y, hy, hxy⟩
    exact ⟨y, hy, x, hx, hxy⟩
  · rintro ⟨y, hy, x, hx, hxy⟩
    exact ⟨x, hx, y, hy, hxy⟩

theorem crossesProperly_comm (s t : Segment α) : crossesProperly s t = crossesProperly t s :=
  Bool.and_comm _ _

theorem segmentsIntersect_comm (s t : Segment α) :
    segmentsIntersect s t = segmentsIntersect t s := by
  simp only [segmentsIntersect, crossesProperly_comm s t]
  ac_rfl

theorem edgesCross_comm (a b : Polygon α) : edgesCross a b = edgesCross b a :=
  any_any_comm crossesProperly_comm a.edges b.edges

theorem polygonsIntersect_comm (a b : Polygon α) :
    polygonsIntersect a b = polygonsIntersect b a := by
  rw [polygonsIntersect, polygonsIntersect, any_any_comm segmentsIntersect_comm a.edges b.edges]
  ac_rfl

theorem interiorsMeet_comm (a b : Polygon α) : interiorsMeet a b = interiorsMeet b a := by
  rw [interiorsMeet, interiorsMeet, edgesCross_comm a b]
  ac_rfl

theorem polygonsTouch_comm (a b : Polygon α) : polygonsTouch a b = polygonsTouch b a := by
  rw [polygonsTouch, polygonsTouch, polygonsIntersect_comm a b, interiorsMeet_comm a b]

theorem polygonsOverlap_comm (a b : Polygon α) : polygonsOverlap a b = polygonsOverlap b a := by
  rw [polygonsOverlap, polygonsOverlap, polygonsIntersect_comm a b]
  ac_rfl

omit [Coordinate α] in
/-- A ring of at least two points has a vertex where an edge starts. -/
theorem exists_edge_of_two_le {p : Polygon α} (h : 2 ≤ p.ring.length) :
    ∃ e ∈ p.edges, e.start ∈ p.ring := by
  obtain ⟨ring⟩ := p
  cases ring with
  | nil => contradiction
  | cons v rest =>
    cases rest with
    | nil => contradiction
    | cons w rest => exact ⟨⟨v, w⟩, List.mem_cons_self, List.mem_cons_self⟩

/-- Closing a ring drops no point, so a polygon through points has a ring of at least three. -/
theorem three_le_length_of_ofPoints? {points : List (Point α)} {p : Polygon α}
    (h : Polygon.ofPoints? points = some p) : 3 ≤ p.ring.length := by
  have hclose : points.length ≤ (Polygon.closeRing points).length := by
    unfold Polygon.closeRing
    split
    · exact Nat.le_refl _
    · split
      · exact Nat.le_refl _
      · simp
  unfold Polygon.ofPoints? at h
  split at h
  · contradiction
  · obtain rfl := Option.some.inj h
    exact Nat.le_trans (by omega) hclose

/-- Polygons meet where one covers the start of an edge of the other: on an edge of its own, which
meets that edge, or inside. -/
theorem polygonsIntersect_of_coversPoint {a b : Polygon α} {t : Segment α} (ht : t ∈ b.edges)
    (hv : t.start ∈ b.ring) (hc : coversPoint a t.start = true) : polygonsIntersect a b = true := by
  rw [coversPoint, Bool.or_eq_true] at hc
  rw [polygonsIntersect, Bool.or_eq_true, Bool.or_eq_true]
  rcases hc with hc | hc
  · obtain ⟨s, hs, hon⟩ := List.any_eq_true.mp hc
    have hmeet : segmentsIntersect s t = true := by simp [segmentsIntersect, hon]
    exact .inl (.inl (List.any_eq_true.mpr ⟨s, hs, List.any_eq_true.mpr ⟨t, ht, hmeet⟩⟩))
  · exact .inr (List.any_eq_true.mpr ⟨t.start, hv, hc⟩)

/-- A polygon covers the vertices of every polygon it contains. -/
theorem coversPoint_of_polygonContains {a b : Polygon α} (h : polygonContains a b = true)
    {p : Point α} (hp : p ∈ b.ring) : coversPoint a p = true := by
  simp only [polygonContains, Bool.and_eq_true] at h
  exact List.all_eq_true.mp h.1.2 p (List.mem_append_left _ hp)

/-- Polygons meet if one contains the other. -/
theorem polygonsIntersect_of_polygonContains {a b : Polygon α} (hb : 2 ≤ b.ring.length)
    (h : polygonContains a b = true) : polygonsIntersect a b = true := by
  obtain ⟨t, ht, hv⟩ := exists_edge_of_two_le hb
  exact polygonsIntersect_of_coversPoint ht hv (coversPoint_of_polygonContains h hv)

/-- Polygons overlap if they meet and neither contains the other. -/
theorem polygonsOverlap_iff {a b : Polygon α} :
    polygonsOverlap a b = true ↔
      polygonsIntersect a b = true ∧ polygonContains a b = false ∧ polygonContains b a = false := by
  simp only [polygonsOverlap, Bool.and_eq_true, Bool.not_eq_true', and_assoc]

/-- Where interiors do not meet, neither polygon contains the other. -/
theorem polygonContains_eq_false_of_interiorsMeet {a b : Polygon α}
    (h : interiorsMeet a b = false) :
    polygonContains a b = false ∧ polygonContains b a = false := by
  simp only [interiorsMeet, Bool.or_eq_false_iff] at h
  exact ⟨h.1.2, h.2⟩

/-- The relations between two polygons whose rings have at least two points, as all rings through
given points have. Meeting, touching and overlapping are symmetric; what one contains it meets;
polygons meet exactly if they overlap or one contains the other, and the first excludes the second;
polygons that touch overlap. -/
theorem polygon_relations :
    (∀ (points : List (Point α)) (p : Polygon α),
      Polygon.ofPoints? points = some p → 2 ≤ p.ring.length) ∧
    ∀ a b : Polygon α, 2 ≤ a.ring.length → 2 ≤ b.ring.length →
      (polygonsIntersect a b = polygonsIntersect b a ∧ polygonsTouch a b = polygonsTouch b a ∧
        polygonsOverlap a b = polygonsOverlap b a) ∧
      (polygonContains a b = true → polygonsIntersect a b = true) ∧
      (polygonsIntersect a b = true ↔
        polygonsOverlap a b = true ∨ polygonContains a b = true ∨ polygonContains b a = true) ∧
      (polygonsOverlap a b = true → polygonContains a b = false ∧ polygonContains b a = false) ∧
      (polygonsTouch a b = true → polygonsOverlap a b = true) := by
  constructor
  · intro points p h
    have := three_le_length_of_ofPoints? h
    omega
  intro a b ha hb
  refine ⟨⟨polygonsIntersect_comm a b, polygonsTouch_comm a b, polygonsOverlap_comm a b⟩,
    polygonsIntersect_of_polygonContains hb, ?_, ?_, ?_⟩
  · constructor
    · intro hmeet
      by_cases hab : polygonContains a b = true
      · exact .inr (.inl hab)
      · by_cases hba : polygonContains b a = true
        · exact .inr (.inr hba)
        · simp only [Bool.not_eq_true] at hab hba
          exact .inl (polygonsOverlap_iff.mpr ⟨hmeet, hab, hba⟩)
    · rintro (h | h | h)
      · exact (polygonsOverlap_iff.mp h).1
      · exact polygonsIntersect_of_polygonContains hb h
      · rw [polygonsIntersect_comm]
        exact polygonsIntersect_of_polygonContains ha h
  · intro h
    exact (polygonsOverlap_iff.mp h).2
  · intro h
    simp only [polygonsTouch, Bool.and_eq_true, Bool.not_eq_true'] at h
    exact polygonsOverlap_iff.mpr ⟨h.1, polygonContains_eq_false_of_interiorsMeet h.2⟩

/-- A triangle in a corner of the unit square. -/
def cornerTriangle : Polygon ℚ := ⟨[⟨0, 0⟩, ⟨1 / 2, 0⟩, ⟨0, 1 / 2⟩, ⟨0, 0⟩]⟩

/-- The square contains the triangle, so they meet and neither touch nor overlap. -/
theorem polygon_relations_cornerTriangle :
    polygonContains Polygon.unitSquare cornerTriangle = true ∧
      polygonsIntersect Polygon.unitSquare cornerTriangle = true ∧
      polygonsOverlap Polygon.unitSquare cornerTriangle = false ∧
      polygonsTouch Polygon.unitSquare cornerTriangle = false := by
  have hcontains : polygonContains Polygon.unitSquare cornerTriangle = true := by decide +kernel
  obtain ⟨-, hmeet, -, hexcludes, htouch⟩ :=
    polygon_relations.2 Polygon.unitSquare cornerTriangle (by decide) (by decide)
  have hoverlap : polygonsOverlap Polygon.unitSquare cornerTriangle = false := by
    rw [← Bool.not_eq_true]
    intro h
    simp [(hexcludes h).1] at hcontains
  refine ⟨hcontains, hmeet hcontains, hoverlap, ?_⟩
  rw [← Bool.not_eq_true]
  intro h
  simp [htouch h] at hoverlap

end SpatialSql.Planar
