import SpatialSql.Planar.Clip
import SpatialSql.Proofs.Planar.RayCasting
import Mathlib.Algebra.BigOperators.Ring.List
import Mathlib.Algebra.Order.BigOperators.Group.List
import Mathlib.Data.List.GetD
import Mathlib.Data.List.Rotate

/-!
# Closed rings read around and around

The vertices of a closed ring are counted on and on, so that the ring may be entered at any of
them. Edges and turns are read off this count. The signed area is a sum of triangles over the
edges, whatever point the triangles have in common, and its sign tells the inner side of an
edge.
-/

namespace SpatialSql

section Edges

variable {α : Type}

/-- A line has one segment less than it has points. -/
theorem length_segmentsOf (points : List (Point α)) :
    (segmentsOf points).length = points.length - 1 := by
  induction points with
  | nil => rfl
  | cons p rest ih =>
    cases rest with
    | nil => rfl
    | cons q rest => simp [segmentsOf, ih]

/-- A segment joins the points at its place and the next. -/
theorem getElem_segmentsOf (points : List (Point α)) (i : ℕ) (h : i < (segmentsOf points).length)
    (hi : i + 1 < points.length) :
    (segmentsOf points)[i] = ⟨points[i], points[i + 1]⟩ := by
  induction points generalizing i with
  | nil => cases h
  | cons p rest ih =>
    cases rest with
    | nil => cases h
    | cons q rest =>
      cases i with
      | zero => rfl
      | succ i => exact ih i (Nat.lt_of_succ_lt_succ h) (Nat.lt_of_succ_lt_succ hi)

end Edges

namespace Polygon

variable {a : Polygon ℚ} {i j : ℕ}

/-- The number of vertices, the repeated end apart. -/
def vertexCount (a : Polygon ℚ) : ℕ := a.ring.length - 1

/-- The vertex with a given index, counted on and on around the ring. -/
def vertexAt (a : Polygon ℚ) (i : ℕ) : Point ℚ := a.ring.getD (i % a.vertexCount) ⟨0, 0⟩

/-- The edge that starts at the vertex with a given index. -/
def side (a : Polygon ℚ) (i : ℕ) : Segment ℚ := ⟨a.vertexAt i, a.vertexAt (i + 1)⟩

/-- The vertices repeat after one round. -/
theorem vertexAt_add_vertexCount (a : Polygon ℚ) (i : ℕ) :
    a.vertexAt (i + a.vertexCount) = a.vertexAt i := by
  rw [vertexAt, vertexAt, Nat.add_mod_right]

theorem vertexAt_mod (a : Polygon ℚ) (i : ℕ) : a.vertexAt (i % a.vertexCount) = a.vertexAt i := by
  rw [vertexAt, vertexAt, Nat.mod_mod]

theorem side_mod (a : Polygon ℚ) (i : ℕ) : a.side (i % a.vertexCount) = a.side i := by
  rw [side, side, vertexAt_mod, ← vertexAt_mod a (i % a.vertexCount + 1), Nat.mod_add_mod,
    vertexAt_mod]

/-- The edge before a vertex is the last one counted from there. -/
theorem stop_side_previous (hpos : 0 < a.vertexCount) (i : ℕ) :
    (a.side (i + (a.vertexCount - 1))).stop = a.vertexAt i := by
  rw [side, Nat.add_assoc, Nat.sub_add_cancel hpos, vertexAt_add_vertexCount]

theorem getElem_mod_vertexCount (h : i % a.vertexCount < a.ring.length) :
    a.ring[i % a.vertexCount] = a.vertexAt i := by
  rw [vertexAt, List.getD_eq_getElem a.ring _ h]

/-- Within one round the vertices are listed in the ring. -/
theorem getElem_eq_vertexAt (hi : i < a.vertexCount) (h : i < a.ring.length) :
    a.ring[i] = a.vertexAt i := by
  rw [vertexAt, Nat.mod_eq_of_lt hi, List.getD_eq_getElem a.ring _ h]

/-- Without repeated vertices, equal vertices have the same index up to full turns. -/
theorem mod_eq_of_vertexAt_eq (hn : a.ring.dropLast.Nodup) (hpos : 0 < a.vertexCount)
    (h : a.vertexAt i = a.vertexAt j) : i % a.vertexCount = j % a.vertexCount := by
  have hopen (k : ℕ) : a.ring.dropLast[k % a.vertexCount]? = some (a.vertexAt k) := by
    have hk : k % a.vertexCount < a.ring.length - 1 := Nat.mod_lt k hpos
    rw [List.getElem?_dropLast, if_pos hk, List.getElem?_eq_getElem (by omega),
      getElem_mod_vertexCount]
  have hi : i % a.vertexCount < a.ring.dropLast.length := by
    rw [List.length_dropLast]
    exact Nat.mod_lt i hpos
  exact (List.getElem?_inj hi hn).mp ((hopen i).trans ((congrArg some h).trans (hopen j).symm))

/-- A closed ring lists its vertices and then the first one again. -/
theorem Closed.getElem_ring (h : a.Closed) (hpos : 0 < a.vertexCount) (hi : i < a.ring.length) :
    a.ring[i] = a.vertexAt i := by
  by_cases hlast : i < a.vertexCount
  · exact getElem_eq_vertexAt hlast hi
  · have hne : a.ring ≠ [] := List.ne_nil_of_length_pos (by omega)
    have hclosed : a.ring.getLast hne = a.ring.head hne := by
      have hends : some (a.ring.head hne) = some (a.ring.getLast hne) := by
        rw [← List.head?_eq_some_head, ← List.getLast?_eq_some_getLast]
        exact h
      exact (Option.some.inj hends).symm
    obtain rfl : i = a.ring.length - 1 := by
      unfold vertexCount at hlast
      omega
    rw [← List.getLast_eq_getElem hne, hclosed, List.head_eq_getElem,
      getElem_eq_vertexAt hpos]
    exact (congrArg a.vertexAt (Nat.mod_self a.vertexCount)).symm.trans (vertexAt_mod a _)

/-- The edges of a closed ring are its sides, in order. -/
theorem Closed.edges_eq (h : a.Closed) : a.edges = (List.range a.vertexCount).map a.side := by
  apply List.ext_getElem
  · rw [edges, length_segmentsOf, List.length_map, List.length_range, vertexCount]
  · intro i hi hi'
    rw [List.length_map, List.length_range] at hi'
    have hnext : i + 1 < a.ring.length := Nat.add_lt_of_lt_sub hi'
    rw [List.getElem_map, List.getElem_range, side, ← h.getElem_ring (Nat.zero_lt_of_lt hi') hnext,
      ← h.getElem_ring (Nat.zero_lt_of_lt hi') (Nat.lt_of_succ_lt hnext)]
    exact getElem_segmentsOf a.ring i hi hnext

/-- The edges of a closed ring are the sides at all places. -/
theorem Closed.mem_edges_iff (h : a.Closed) (hpos : 0 < a.vertexCount) {e : Segment ℚ} :
    e ∈ a.edges ↔ ∃ i, e = a.side i := by
  rw [h.edges_eq, List.mem_map]
  constructor
  · rintro ⟨i, -, rfl⟩
    exact ⟨i, rfl⟩
  · rintro ⟨i, rfl⟩
    exact ⟨i % a.vertexCount, List.mem_range.mpr (Nat.mod_lt i hpos), side_mod a i⟩

/-- The points of a closed ring are the vertices at all places. -/
theorem Closed.mem_ring_iff (h : a.Closed) (hpos : 0 < a.vertexCount) {p : Point ℚ} :
    p ∈ a.ring ↔ ∃ i, p = a.vertexAt i := by
  constructor
  · intro hp
    obtain ⟨i, hi, rfl⟩ := List.getElem_of_mem hp
    exact ⟨i, h.getElem_ring hpos hi⟩
  · rintro ⟨i, rfl⟩
    rw [← getElem_mod_vertexCount ((Nat.mod_lt i hpos).trans_le (Nat.sub_le _ _))]
    exact List.getElem_mem _

/-- What is gained along the edges of a closed ring is lost again. -/
theorem Closed.sum_ends (h : a.Closed) (g : Point ℚ → ℚ) :
    (a.edges.map fun e => g e.stop - g e.start).sum = 0 := by
  have hgain (n : ℕ) : ((List.range n).map fun i => g (a.side i).stop - g (a.side i).start).sum =
      g (a.vertexAt n) - g (a.vertexAt 0) := by
    induction n with
    | zero => simp
    | succ n ih =>
      rw [List.range_succ, List.map_append, List.sum_append, ih, List.map_singleton,
        List.sum_singleton]
      exact sub_add_sub_cancel' _ _ _
  have hround : a.vertexAt a.vertexCount = a.vertexAt 0 := by
    rw [← vertexAt_mod, Nat.mod_self]
  rw [h.edges_eq, List.map_map]
  exact (hgain a.vertexCount).trans (by rw [hround, sub_self])

/-- The edges may be listed from any vertex on. -/
theorem Closed.perm_edges (h : a.Closed) (first : ℕ) :
    ((List.range a.vertexCount).map fun i => a.side (first + i)).Perm a.edges := by
  have hrotate : ((List.range a.vertexCount).map fun i => a.side (first + i)) =
      a.edges.rotate first := by
    rw [h.edges_eq]
    apply List.ext_getElem
    · simp
    · intro i hi hi'
      simp only [List.getElem_map, List.getElem_range, List.getElem_rotate, List.length_map,
        List.length_range, side_mod, Nat.add_comm first]
  rw [hrotate]
  exact a.edges.rotate_perm first

end Polygon

namespace Planar

open Segment Coordinate

variable {a : Polygon ℚ} {e s : Segment ℚ} {o p : Point ℚ} {u : ℚ}

/-- The turns of a ring are those from each edge to the next. -/
theorem turns_eq (a : Polygon ℚ) :
    turns a = (List.range a.vertexCount).map fun i => (a.side i).cross (a.side (i + 1)) := by
  have hrotate (l : List (Point ℚ)) : l.drop 1 ++ l.take 1 = l.rotate 1 := by
    cases l with
    | nil => rfl
    | cons p rest => exact (List.rotate_eq_drop_append_take (by simp)).symm
  have hturn (u v w : Point ℚ) : orientation u v w = (⟨u, v⟩ : Segment ℚ).cross ⟨v, w⟩ := by
    simp only [orientation, cross]
    ring
  have hat (i : ℕ) (h : i % (a.ring.length - 1) < a.ring.length) :
      a.ring[i % (a.ring.length - 1)] = a.vertexAt i :=
    Polygon.getElem_mod_vertexCount h
  simp only [turns, hrotate, List.rotate_rotate]
  apply List.ext_getElem
  · simp [Polygon.vertexCount]
  · intro i hi hi'
    simp only [List.getElem_map, List.getElem_zip, List.getElem_range, List.getElem_rotate,
      List.getElem_dropLast, List.length_dropLast, hturn, hat]
    rw [Polygon.getElem_eq_vertexAt (by simpa using hi')]
    rfl

section Area

/-- Exact numbers are summed without rounding. -/
theorem sum_exact (xs : List ℚ) : Coordinate.sum xs = xs.sum := by
  cases xs with
  | nil => rfl
  | cons x rest =>
    rw [Coordinate.sum, List.sum_cons]
    induction rest generalizing x with
    | nil => exact (add_zero x).symm
    | cons y rest ih => rw [List.foldl_cons, ih, List.sum_cons, add_assoc]

/-- Twice the signed area is the sum of the triangles from the edges to any point. Seen from another
point than the origin, each triangle changes by what is gained along its edge. -/
theorem two_mul_signedArea (h : a.Closed) (o : Point ℚ) :
    2 * signedArea a = (a.edges.map fun e => orientation e.start e.stop o).sum := by
  have htwo : (ofInt 2 : ℚ) = 2 := rfl
  have hfan (e : Segment ℚ) : e.start.x * e.stop.y - e.stop.x * e.start.y =
      orientation e.start e.stop o +
        ((o.x * e.stop.y - o.y * e.stop.x) - (o.x * e.start.y - o.y * e.start.x)) := by
    simp only [orientation]
    ring
  have hsum : (a.edges.map fun e => e.start.x * e.stop.y - e.stop.x * e.start.y).sum =
      (a.edges.map fun e => orientation e.start e.stop o).sum := by
    rw [List.map_congr_left fun e _ => hfan e, List.sum_map_add,
      h.sum_ends fun p => o.x * p.y - o.y * p.x, add_zero]
  rw [signedArea, sum_exact, hsum, htwo, mul_div_cancel₀ _ two_ne_zero]

/-- A ring whose edges all pass a point on the same side winds around it that way. -/
theorem signedArea_mul_nonneg {σ : ℚ} (h : a.Closed)
    (ho : ∀ e ∈ a.edges, 0 ≤ orientation e.start e.stop o * σ) : 0 ≤ signedArea a * σ := by
  have hsum : 2 * (signedArea a * σ) = (a.edges.map fun e => orientation e.start e.stop o * σ).sum := by
    rw [List.sum_map_mul_right, ← two_mul_signedArea h o, mul_assoc]
  have hnonneg : 0 ≤ 2 * (signedArea a * σ) := by
    rw [hsum]
    exact List.sum_nonneg (by simpa using ho)
  linarith

/-- Points on one line have no orientation. -/
theorem orientation_of_line (hs : s.start ≠ s.stop) {u v w : Point ℚ}
    (hu : orientation s.start s.stop u = 0) (hv : orientation s.start s.stop v = 0)
    (hw : orientation s.start s.stop w = 0) : orientation u v w = 0 := by
  obtain ⟨k, rfl⟩ := exists_along_of_orientation_eq_zero hs hu
  obtain ⟨l, rfl⟩ := exists_along_of_orientation_eq_zero hs hv
  obtain ⟨m, rfl⟩ := exists_along_of_orientation_eq_zero hs hw
  simp only [orientation, along]
  ring

/-- A ring whose edges all pass a point in line with it has no area. -/
theorem signedArea_eq_zero (h : a.Closed) (ho : ∀ e ∈ a.edges, orientation e.start e.stop o = 0) :
    signedArea a = 0 := by
  have hsum := two_mul_signedArea h o
  rw [List.map_congr_left ho] at hsum
  simpa using hsum

/-- A ring whose vertices lie on one line has no area. -/
theorem signedArea_eq_zero_of_line (h : a.Closed) (hs : s.start ≠ s.stop)
    (hline : ∀ v ∈ a.ring, orientation s.start s.stop v = 0) : signedArea a = 0 := by
  refine signedArea_eq_zero h (o := s.start) fun e he => ?_
  obtain ⟨hstart, hstop⟩ := Polygon.mem_ring_of_mem_edges he
  have hself : orientation s.start s.stop s.start = 0 := by
    simp only [orientation]
    ring
  exact orientation_of_line hs (hline _ hstart) (hline _ hstop) hself

end Area

section Inward

/-- How far a point is off the line of an edge towards the inner side, times the length of the edge.
The inner side is the left one for a ring that runs counter-clockwise. -/
def inward (a : Polygon ℚ) (e : Segment ℚ) (p : Point ℚ) : ℚ :=
  orientation e.start e.stop p * sign (signedArea a)

/-- A sign is one or minus one. -/
theorem sign_eq_one_or_neg_one (x : ℚ) : sign x = 1 ∨ sign x = -1 := by
  change (if x < 0 then (-1 : ℚ) else 1) = 1 ∨ (if x < 0 then (-1 : ℚ) else 1) = -1
  split
  · exact .inr rfl
  · exact .inl rfl

/-- The inner side of an edge is where the winding points, with the line of the edge. -/
theorem innerSide_iff : innerSide u e p = true ↔ 0 ≤ orientation e.start e.stop p * u := by
  rw [innerSide, atMost_exact, zero_exact]

/-- Along a segment, the distance from an edge changes evenly. -/
theorem inward_along (a : Polygon ℚ) (e s : Segment ℚ) (u : ℚ) :
    inward a e (s.along u) = (1 - u) * inward a e s.start + u * inward a e s.stop := by
  simp only [inward, orientation_along, orientation_stop]
  ring

/-- Points of an edge are at no distance from its line. -/
theorem inward_eq_zero_of_covers (h : e.Covers p) : inward a e p = 0 := by
  obtain ⟨u, -, -, rfl⟩ := h
  rw [inward, orientation_along_self, zero_mul]

theorem inward_eq_zero_iff : inward a e p = 0 ↔ orientation e.start e.stop p = 0 := by
  have hsign : sign (signedArea a) ≠ 0 := by
    rcases sign_eq_one_or_neg_one (signedArea a) with h | h <;> rw [h] <;> norm_num
  rw [inward, mul_eq_zero, or_iff_left hsign]

end Inward

end Planar

end SpatialSql
