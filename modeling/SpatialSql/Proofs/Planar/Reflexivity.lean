import SpatialSql.Emulation.Basic
import SpatialSql.Proofs.Meaning.Segments
import SpatialSql.Proofs.Planar.Containment

/-!
# A polygon and itself

The samples of a polygon, its vertices and the midpoints of its edges, all lie on its own
boundary. So none of them shows that it contains itself, and none that it does not: that is left
to the crossings of its edges and to its area. A polygon contains itself unless its ring crosses
itself, however often the ring repeats a vertex or runs straight on through one.
-/

namespace SpatialSql.Planar

open Segment

/-- Every vertex of a ring of two points or more is an end of an edge. -/
theorem exists_edge_of_mem_ring {α : Type} {p : Polygon α} {v : Point α} (hlength : 2 ≤ p.ring.length)
    (hv : v ∈ p.ring) : ∃ e ∈ p.edges, v = e.start ∨ v = e.stop := by
  obtain ⟨ring⟩ := p
  change 2 ≤ ring.length at hlength
  change v ∈ ring at hv
  change ∃ e ∈ segmentsOf ring, v = e.start ∨ v = e.stop
  induction ring with
  | nil => cases hv
  | cons first rest ih =>
    cases rest with
    | nil => simp at hlength
    | cons second rest =>
      have hedge : (⟨first, second⟩ : Segment α) ∈ segmentsOf (first :: second :: rest) :=
        List.mem_cons_self
      rcases List.mem_cons.mp hv with rfl | hv
      · exact ⟨_, hedge, .inl rfl⟩
      · cases rest with
        | nil => exact ⟨_, hedge, .inr (List.mem_singleton.mp hv)⟩
        | cons third rest =>
          obtain ⟨e, he, hend⟩ := ih (Nat.le_add_left 2 _) hv
          exact ⟨e, List.mem_cons_of_mem _ he, hend⟩

variable {p : Polygon ℚ} {v : Point ℚ}

/-- A segment covers its middle. -/
theorem covers_midpoint (e : Segment ℚ) : e.Covers (midpoint e) :=
  ⟨1 / 2, by norm_num, by norm_num, (midpoint_eq_along e).symm⟩

/-- The samples of a polygon lie on its boundary. -/
theorem onBoundary_of_mem_samples (hlength : 2 ≤ p.ring.length) (hv : v ∈ samples p) :
    onBoundary p v = true := by
  rw [onBoundary_iff]
  rcases List.mem_append.mp hv with hv | hv
  · obtain ⟨e, he, rfl | rfl⟩ := exists_edge_of_mem_ring hlength hv
    · exact ⟨e, he, e.covers_start⟩
    · exact ⟨e, he, e.covers_stop⟩
  · obtain ⟨e, he, rfl⟩ := List.mem_map.mp hv
    exact ⟨e, he, covers_midpoint e⟩

/-- A polygon covers its own samples. -/
theorem coversPoint_of_mem_samples (hlength : 2 ≤ p.ring.length) (hv : v ∈ samples p) :
    coversPoint p v = true := by
  rw [coversPoint, onBoundary_of_mem_samples hlength hv, Bool.true_or]

/-- A polygon contains itself unless edges of it cross. -/
theorem polygonContains_self (hlength : 2 ≤ p.ring.length) :
    polygonContains p p = !edgesCross p p := by
  have hcovers : (samples p).all (coversPoint p) = true :=
    List.all_eq_true.mpr fun _ hv => coversPoint_of_mem_samples hlength hv
  have harea : (area p == area p) = true := beq_self_eq_true _
  rw [polygonContains, hcovers, harea, Bool.or_true, Bool.and_true, Bool.and_true]

/-- A polygon meets itself. -/
theorem polygonsIntersect_self (hlength : 2 ≤ p.ring.length) : polygonsIntersect p p = true := by
  obtain ⟨e, he, hv⟩ := exists_edge_of_two_le hlength
  exact polygonsIntersect_of_coversPoint he hv
    (coversPoint_of_mem_samples hlength (List.mem_append_left _ hv))

/-- A ring that crosses itself makes the interiors meet, and otherwise containment does. -/
theorem polygonsTouch_self (hlength : 2 ≤ p.ring.length) : polygonsTouch p p = false := by
  have hmeet : interiorsMeet p p = true := by
    rw [interiorsMeet, polygonContains_self hlength]
    cases edgesCross p p <;> simp
  rw [polygonsTouch, hmeet, Bool.not_true, Bool.and_false]

/-- A polygon overlaps itself only if edges of it cross. -/
theorem polygonsOverlap_self (hlength : 2 ≤ p.ring.length) :
    polygonsOverlap p p = edgesCross p p := by
  rw [polygonsOverlap, polygonsIntersect_self hlength, polygonContains_self hlength, Bool.not_not,
    Bool.true_and, Bool.and_self]

end SpatialSql.Planar

namespace SpatialSql.Emulation

open SpatialSql.Expr Planar

/-- The region that a polygon shares with itself is the polygon, once it contains itself. -/
theorem emulate?_intersection_self [Spelling ℚ] {p : Polygon ℚ}
    (hmeet : polygonsIntersect p p = true) (hcontains : polygonContains p p = true) :
    emulate? .polygon .intersection [polygon p, polygon p] = some (.value (polygon p)) := by
  have hshared : sharedRegion? p p = some (some p) := by
    rw [sharedRegion?, hmeet, hcontains]
    rfl
  change emulateIntersection? (polygon p) (polygon p) = _
  change (sharedRegion? p p).map _ = _
  rw [hshared]
  rfl

/-- With exact coordinates, a polygon made of points without proper crossings of its edges contains
and meets itself, neither touches nor overlaps itself, and shares all of itself with itself. -/
theorem related_to_itself [Spelling ℚ] (points : List (Point ℚ)) (p : Polygon ℚ)
    (hp : Polygon.ofPoints? points = some p)
    (hcross : ∀ s ∈ p.edges, ∀ t ∈ p.edges, crossesProperly s t = false) :
    polygonContains p p = true ∧ polygonsIntersect p p = true ∧ polygonsTouch p p = false ∧
      polygonsOverlap p p = false ∧
      emulate? .polygon .intersection [polygon p, polygon p] = some (.value (polygon p)) := by
  have hlength : 2 ≤ p.ring.length := Nat.le_of_succ_le (three_le_length_of_ofPoints? hp)
  have hnone : edgesCross p p = false := by
    simpa [edgesCross, List.any_eq_false] using hcross
  have hcontains : polygonContains p p = true := by
    rw [polygonContains_self hlength, hnone]
    rfl
  have hmeet := polygonsIntersect_self hlength
  exact ⟨hcontains, hmeet, polygonsTouch_self hlength, (polygonsOverlap_self hlength).trans hnone,
    emulate?_intersection_self hmeet hcontains⟩

/-- The corners of a stair, with one of them twice and a vertex half way along a side. -/
def stairCorners : List (Point ℚ) :=
  [⟨0, 0⟩, ⟨2, 0⟩, ⟨4, 0⟩, ⟨4, 1⟩, ⟨4, 1⟩, ⟨1, 1⟩, ⟨1, 3⟩, ⟨0, 3⟩]

/-- The polygon through them. -/
def stair : Polygon ℚ := ⟨stairCorners ++ [⟨0, 0⟩]⟩

theorem related_to_itself_stair :
    Polygon.ofPoints? stairCorners = some stair ∧
    (∀ s ∈ stair.edges, ∀ t ∈ stair.edges, crossesProperly s t = false) ∧
    polygonContains stair stair = true ∧ polygonsIntersect stair stair = true ∧
    polygonsTouch stair stair = false ∧ polygonsOverlap stair stair = false ∧
    emulate? .polygon .intersection [polygon stair, polygon stair] = some (.value (polygon stair)) := by
  have hp : Polygon.ofPoints? stairCorners = some stair := by decide +kernel
  have hcross : ∀ s ∈ stair.edges, ∀ t ∈ stair.edges, crossesProperly s t = false := by decide +kernel
  exact ⟨hp, hcross, related_to_itself stairCorners stair hp hcross⟩

end SpatialSql.Emulation
