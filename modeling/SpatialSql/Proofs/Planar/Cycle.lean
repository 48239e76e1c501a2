import SpatialSql.Proofs.Planar.HalfPlanes

/-!
# One cycle of vertices, many rings

A closed ring can be listed from any of its vertices on, and in either direction. Its edges
are then the same ones, either all of them turned around or none. No test of an edge depends
on its direction, and the signed area changes its sign at most. So what is measured of a
polygon and decided about it rests on the cycle of its vertices alone.
-/

namespace SpatialSql

namespace Polygon

variable {a b : Polygon ℚ}

/-- The rings run through the same cycle of vertices, in the same direction or in opposite ones. -/
def SameCycle (a b : Polygon ℚ) : Prop :=
  b.ring.dropLast ~r a.ring.dropLast ∨ b.ring.dropLast ~r a.ring.dropLast.reverse

/-- The polygon has the vertices and the edges of another one, where either all edges or none are
turned around. -/
structure Retraces (b a : Polygon ℚ) : Prop where
  edges : b.edges.Perm a.edges ∨ b.edges.Perm (a.edges.map Segment.reverse)
  ring : ∀ p, p ∈ b.ring ↔ p ∈ a.ring

/-- The segments from each point of a cycle to the next. -/
def cycleEdges (vertices : List (Point ℚ)) : List (Segment ℚ) :=
  List.zipWith Segment.mk vertices (vertices.rotate 1)

/-- The segments of a line join its points without the last to those without the first. -/
theorem segmentsOf_eq_zipWith (points : List (Point ℚ)) :
    segmentsOf points = List.zipWith Segment.mk points.dropLast points.tail := by
  induction points with
  | nil => rfl
  | cons p rest ih =>
    cases rest with
    | nil => rfl
    | cons q rest => exact congrArg (Segment.mk p q :: ·) ih

/-- Without its first point, a closed ring is its open ring entered one vertex later. -/
theorem Closed.tail_eq (h : a.Closed) : a.ring.tail = a.ring.dropLast.rotate 1 := by
  obtain ⟨ring⟩ := a
  cases ring with
  | nil => rfl
  | cons p rest =>
    cases rest with
    | nil => rfl
    | cons q rest =>
      have hlast : p ∈ (q :: rest).getLast? := h.symm
      rw [List.dropLast_cons_cons, List.rotate_cons_succ, List.rotate_zero,
        List.dropLast_append_getLast? p hlast]
      rfl

/-- The edges of a closed ring are those of the cycle of its distinct places. -/
theorem Closed.edges_eq_cycleEdges (h : a.Closed) : a.edges = cycleEdges a.ring.dropLast := by
  rw [edges, segmentsOf_eq_zipWith, h.tail_eq, cycleEdges]

/-- A cycle that is entered at another vertex has the same edges. -/
theorem cycleEdges_perm {vertices vertices' : List (Point ℚ)} (h : vertices' ~r vertices) :
    (cycleEdges vertices').Perm (cycleEdges vertices) := by
  obtain ⟨n, rfl⟩ := h.symm
  have hrotate : cycleEdges (vertices.rotate n) = (cycleEdges vertices).rotate n := by
    rw [cycleEdges, cycleEdges, List.zipWith_rotate_distrib _ _ _ _ (by simp), List.rotate_rotate,
      List.rotate_rotate, Nat.add_comm]
  rw [hrotate]
  exact List.rotate_perm _ n

/-- In the opposite direction, every edge of a cycle is turned around. -/
theorem cycleEdges_reverse_perm (vertices : List (Point ℚ)) :
    (cycleEdges vertices.reverse).Perm ((cycleEdges vertices).map Segment.reverse) := by
  have hback : (vertices.rotate 1).reverse.rotate 1 = vertices.reverse := by
    cases vertices with
    | nil => rfl
    | cons first rest => simp
  have hturned : (cycleEdges vertices).map Segment.reverse =
      List.zipWith Segment.mk (vertices.rotate 1) vertices := by
    rw [cycleEdges, List.map_zipWith, List.zipWith_comm]
    rfl
  have hrotate : cycleEdges vertices.reverse =
      ((cycleEdges vertices).map Segment.reverse).reverse.rotate 1 := by
    rw [hturned, List.reverse_zipWith (by simp), List.zipWith_rotate_distrib _ _ _ _ (by simp),
      hback, cycleEdges]
  rw [hrotate]
  exact (List.rotate_perm _ 1).trans (List.reverse_perm _)

/-- The repeated end of a closed ring is a vertex of its open ring. -/
theorem Closed.mem_ring_iff_mem_dropLast (h : a.Closed) (hlen : 2 ≤ a.ring.length) {p : Point ℚ} :
    p ∈ a.ring ↔ p ∈ a.ring.dropLast := by
  refine ⟨fun hp => ?_, List.mem_of_mem_dropLast⟩
  have hne : a.ring ≠ [] := List.ne_nil_of_length_pos (by omega)
  have hopen : a.ring.dropLast ≠ [] := by
    apply List.ne_nil_of_length_pos
    rw [List.length_dropLast]
    omega
  rw [← List.cons_head_tail hne, List.mem_cons] at hp
  rcases hp with rfl | hp
  · rw [← List.head_dropLast hopen]
    exact List.head_mem hopen
  · rw [h.tail_eq, List.mem_rotate] at hp
    exact hp

/-- A ring through the same cycle retraces the edges of the ring. -/
theorem SameCycle.retraces (h : a.SameCycle b) (ha : a.Closed) (hb : b.Closed)
    (hlen : 2 ≤ a.ring.length) : b.Retraces a := by
  have hperm : b.ring.dropLast.Perm a.ring.dropLast :=
    h.elim List.IsRotated.perm fun h => h.perm.trans (List.reverse_perm _)
  have hlen' : 2 ≤ b.ring.length := by
    have hcount := hperm.length_eq
    rw [List.length_dropLast, List.length_dropLast] at hcount
    omega
  constructor
  · rw [ha.edges_eq_cycleEdges, hb.edges_eq_cycleEdges]
    exact h.imp cycleEdges_perm fun h => (cycleEdges_perm h).trans (cycleEdges_reverse_perm _)
  · intro p
    rw [ha.mem_ring_iff_mem_dropLast hlen, hb.mem_ring_iff_mem_dropLast hlen', hperm.mem_iff]

end Polygon

namespace Planar

open Segment

/-- A point lies on a segment whichever way it is walked. -/
theorem onSegment_reverse (e : Segment ℚ) (p : Point ℚ) : onSegment e.reverse p = onSegment e p := by
  rw [Bool.eq_iff_iff, onSegment_iff_covers, onSegment_iff_covers, covers_reverse]

/-- Two segments meet whichever way one of them is walked. -/
theorem segmentsIntersect_reverse (s t : Segment ℚ) :
    segmentsIntersect s.reverse t = segmentsIntersect s t := by
  rw [Bool.eq_iff_iff, segmentsIntersect_iff_meets, segmentsIntersect_iff_meets]
  simp only [Meets, covers_reverse]

/-- A segment and its reverse have the same middle. -/
theorem midpoint_reverse (e : Segment ℚ) : midpoint e.reverse = midpoint e := by
  simp only [midpoint, reverse, add_comm]

end Planar

namespace Polygon.Retraces

open Planar

variable {a b : Polygon ℚ} (h : b.Retraces a)

include h

/-- A test of edges that does not depend on their direction passes for some edge of both or of none. -/
theorem any_edges {f : Segment ℚ → Bool} (hf : ∀ e, f e.reverse = f e) :
    b.edges.any f = a.edges.any f := by
  rcases h.edges with hperm | hperm
  · exact hperm.any_eq
  · rw [hperm.any_eq, List.any_map]
    exact congrArg a.edges.any (funext hf)

/-- A test of edges that does not depend on their direction passes equally often, up to parity. -/
theorem oddly_edges {f : Segment ℚ → Bool} (hf : ∀ e, f e.reverse = f e) :
    oddly f b.edges = oddly f a.edges := by
  rcases h.edges with hperm | hperm
  · exact oddly_perm hperm
  · rw [oddly_perm hperm, oddly_map]
    exact congrArg (oddly · a.edges) (funext hf)

/-- A vertex with a property is found in either ring. -/
theorem any_ring (f : Point ℚ → Bool) : b.ring.any f = a.ring.any f := by
  rw [Bool.eq_iff_iff, List.any_eq_true, List.any_eq_true]
  simp only [h.ring]

/-- A sample with a property is found in either ring. -/
theorem any_samples (f : Point ℚ → Bool) : (samples b).any f = (samples a).any f := by
  rw [samples, samples, List.any_append, List.any_append, List.any_map, List.any_map, h.any_ring,
    h.any_edges fun e => congrArg f (midpoint_reverse e)]

/-- A property of all samples is one of both rings. -/
theorem all_samples (f : Point ℚ → Bool) : (samples b).all f = (samples a).all f := by
  rw [List.all_eq_not_any_not, List.all_eq_not_any_not, h.any_samples]

/-- The signed area changes its sign at most. -/
theorem area_eq : area b = area a := by
  have hterms {xs ys : List ℚ} (hperm : xs.Perm ys) : Coordinate.sum xs = Coordinate.sum ys := by
    rw [sum_exact, sum_exact, hperm.sum_eq]
  rcases h.edges with hperm | hperm
  · rw [area, area, signedArea, signedArea, hterms (hperm.map _)]
  · have hterm : (fun e : Segment ℚ => e.start.x * e.stop.y - e.stop.x * e.start.y) ∘ Segment.reverse =
        fun e => -1 * (e.start.x * e.stop.y - e.stop.x * e.start.y) := by
      funext e
      simp only [Function.comp_apply, Segment.reverse]
      ring
    have hneg : signedArea b = -signedArea a := by
      rw [signedArea, signedArea, hterms (hperm.map _), List.map_map, sum_exact, sum_exact,
        hterm, List.sum_map_mul_left, neg_one_mul, neg_div]
    rw [area, area, hneg]
    exact abs_neg (signedArea a)

/-- Both polygons have the same boundary. -/
theorem onBoundary_eq (p : Point ℚ) : onBoundary b p = onBoundary a p :=
  h.any_edges fun e => onSegment_reverse e p

/-- Both polygons contain the same points. -/
theorem containsPoint_eq (p : Point ℚ) : containsPoint b p = containsPoint a p := by
  have hinside : inside b p = inside a p := h.oddly_edges fun e => rayCrosses_reverse p e
  change (!onBoundary b p && inside b p) = (!onBoundary a p && inside a p)
  rw [h.onBoundary_eq, hinside]

/-- Both polygons cover the same points. -/
theorem coversPoint_eq (p : Point ℚ) : coversPoint b p = coversPoint a p := by
  rw [coversPoint, coversPoint, h.onBoundary_eq, h.containsPoint_eq]

variable (c : Polygon ℚ)

/-- Both polygons meet the same polygons. -/
theorem polygonsIntersect_eq : polygonsIntersect b c = polygonsIntersect a c := by
  have hedges := h.any_edges (f := fun s => c.edges.any fun t => segmentsIntersect s t)
    fun e => by simp only [segmentsIntersect_reverse]
  have hinside : containsPoint b = containsPoint a := funext h.containsPoint_eq
  rw [polygonsIntersect, polygonsIntersect, hedges, h.any_ring, hinside]

/-- The edges of both polygons cross those of the same polygons. -/
theorem edgesCross_eq : edgesCross b c = edgesCross a c :=
  h.any_edges fun e => by simp only [crossesProperly_reverse]

/-- Both polygons contain the same polygons. -/
theorem polygonContains_eq : polygonContains b c = polygonContains a c := by
  have hinside : containsPoint b = containsPoint a := funext h.containsPoint_eq
  have hcovers : coversPoint b = coversPoint a := funext h.coversPoint_eq
  rw [polygonContains, polygonContains, h.edgesCross_eq, hcovers, hinside, h.area_eq]

/-- Both polygons are contained in the same polygons. -/
theorem polygonContains_eq_right : polygonContains c b = polygonContains c a := by
  rw [polygonContains, polygonContains, edgesCross_comm c b, h.edgesCross_eq, edgesCross_comm a c,
    h.all_samples, h.any_samples, h.area_eq]

/-- The interiors of both polygons meet those of the same polygons. -/
theorem interiorsMeet_eq : interiorsMeet b c = interiorsMeet a c := by
  have hinside : containsPoint b = containsPoint a := funext h.containsPoint_eq
  rw [interiorsMeet, interiorsMeet, h.edgesCross_eq, hinside, h.any_samples, h.polygonContains_eq,
    h.polygonContains_eq_right]

/-- Both polygons touch the same polygons. -/
theorem polygonsTouch_eq : polygonsTouch b c = polygonsTouch a c := by
  rw [polygonsTouch, polygonsTouch, h.polygonsIntersect_eq, h.interiorsMeet_eq]

/-- Both polygons overlap the same polygons. -/
theorem polygonsOverlap_eq : polygonsOverlap b c = polygonsOverlap a c := by
  rw [polygonsOverlap, polygonsOverlap, h.polygonsIntersect_eq, h.polygonContains_eq,
    h.polygonContains_eq_right]

end Polygon.Retraces

namespace Planar

/-- A closed ring may be entered at any of its vertices and run through in either direction: the area
of the polygon, the points inside it and on its boundary, and its relations to every other polygon, on
either side, stay the same. -/
theorem cycle_determines (a b : Polygon ℚ) (ha : a.Closed) (hb : b.Closed) (hlen : 2 ≤ a.ring.length)
    (hcycle : a.SameCycle b) :
    area b = area a ∧
      (∀ p, containsPoint b p = containsPoint a p ∧ coversPoint b p = coversPoint a p) ∧
      ∀ c,
        (polygonsIntersect b c = polygonsIntersect a c ∧
          polygonsIntersect c b = polygonsIntersect c a) ∧
        (polygonContains b c = polygonContains a c ∧ polygonContains c b = polygonContains c a) ∧
        (polygonsTouch b c = polygonsTouch a c ∧ polygonsTouch c b = polygonsTouch c a) ∧
        (polygonsOverlap b c = polygonsOverlap a c ∧ polygonsOverlap c b = polygonsOverlap c a) := by
  have h : b.Retraces a := hcycle.retraces ha hb hlen
  refine ⟨h.area_eq, fun p => ⟨h.containsPoint_eq p, h.coversPoint_eq p⟩, fun c => ?_⟩
  rw [polygonsIntersect_comm c b, polygonsIntersect_comm c a, polygonsTouch_comm c b,
    polygonsTouch_comm c a, polygonsOverlap_comm c b, polygonsOverlap_comm c a]
  exact ⟨⟨h.polygonsIntersect_eq c, h.polygonsIntersect_eq c⟩,
    ⟨h.polygonContains_eq c, h.polygonContains_eq_right c⟩,
    ⟨h.polygonsTouch_eq c, h.polygonsTouch_eq c⟩, h.polygonsOverlap_eq c, h.polygonsOverlap_eq c⟩

/-- An angle bracket, counter-clockwise from its outer corner. -/
def bracket : Polygon ℚ := ⟨[⟨0, 0⟩, ⟨4, 0⟩, ⟨4, 1⟩, ⟨1, 1⟩, ⟨1, 3⟩, ⟨0, 3⟩, ⟨0, 0⟩]⟩

/-- The same bracket, clockwise from its inner corner. -/
def bracketBackwards : Polygon ℚ := ⟨[⟨1, 1⟩, ⟨4, 1⟩, ⟨4, 0⟩, ⟨0, 0⟩, ⟨0, 3⟩, ⟨1, 3⟩, ⟨1, 1⟩]⟩

/-- The bracket has the same area and overlaps the same corner triangle from either end. -/
theorem cycle_determines_bracket :
    bracket.Closed ∧ bracketBackwards.Closed ∧ 2 ≤ bracket.ring.length ∧
      bracket.SameCycle bracketBackwards ∧ area bracketBackwards = 6 ∧
      containsPoint bracketBackwards ⟨2, 2⟩ = false ∧
      polygonsOverlap cornerTriangle bracketBackwards = polygonsOverlap cornerTriangle bracket := by
  have hcycle : bracket.SameCycle bracketBackwards := .inr ⟨4, by decide⟩
  have hfacts : area bracket = 6 ∧ containsPoint bracket ⟨2, 2⟩ = false := by decide +kernel
  obtain ⟨harea, hpoint, hrelations⟩ :=
    cycle_determines bracket bracketBackwards rfl rfl (by decide) hcycle
  exact ⟨rfl, rfl, by decide, hcycle, harea.trans hfacts.1, (hpoint _).1.trans hfacts.2,
    (hrelations cornerTriangle).2.2.2.2⟩

end Planar

end SpatialSql
