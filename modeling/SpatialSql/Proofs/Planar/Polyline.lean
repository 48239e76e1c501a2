import SpatialSql.Proofs.Planar.Crossing
import SpatialSql.Proofs.Planar.RayCasting
import Mathlib.Data.List.Induction
import Mathlib.Data.List.Nodup

/-!
# Where two lines cross

The crossing points of two lines are collected on a walk along the first line and, for each of
its segments, along the second. A point that comes up again, as it does at a vertex, is not
collected again. So the list has every crossing point once, in the order of first discovery.
Which line is walked first decides about that order and about nothing else.
-/

namespace SpatialSql

namespace Planar

open Segment

section Collecting

variable {found xs : List (Point ℚ)} {p x : Point ℚ}

/-- A point that is inserted is found, and so are those before it. -/
theorem mem_insertNew : x ∈ insertNew found p ↔ x ∈ found ∨ x = p := by
  unfold insertNew
  split
  · rename_i hp
    rw [List.contains_iff_mem] at hp
    constructor
    · exact .inl
    · rintro (hx | rfl)
      · exact hx
      · exact hp
  · rw [List.mem_append, List.mem_singleton]

/-- Inserting a point makes no repetition. -/
theorem nodup_insertNew (h : found.Nodup) : (insertNew found p).Nodup := by
  unfold insertNew
  split
  · exact h
  · rename_i hp
    rw [List.contains_iff_mem] at hp
    exact List.nodup_append.mpr ⟨h, List.nodup_singleton p, by
      rintro x hx y hy rfl
      rw [List.mem_singleton] at hy
      exact hp (hy ▸ hx)⟩

/-- What is collected from a list is what occurs in it. -/
theorem mem_collected : x ∈ xs.foldl insertNew [] ↔ x ∈ xs := by
  induction xs using List.reverseRecOn with
  | nil => rfl
  | append_singleton xs p ih =>
    rw [List.foldl_concat, mem_insertNew, ih, List.mem_append, List.mem_singleton]

/-- Collected points are not repeated. -/
theorem nodup_collected (xs : List (Point ℚ)) : (xs.foldl insertNew []).Nodup := by
  induction xs using List.reverseRecOn with
  | nil => exact List.nodup_nil
  | append_singleton xs p ih =>
    rw [List.foldl_concat]
    exact nodup_insertNew ih

/-- Of two points that are collected, the first one has come up when the second had not. -/
theorem pairwise_collected (xs : List (Point ℚ)) :
    (xs.foldl insertNew []).Pairwise fun x y =>
      ∃ before after, xs = before ++ x :: after ∧ y ∉ before := by
  induction xs using List.reverseRecOn with
  | nil => exact List.Pairwise.nil
  | append_singleton xs p ih =>
    have hlonger : (xs.foldl insertNew []).Pairwise fun x y =>
        ∃ before after, xs ++ [p] = before ++ x :: after ∧ y ∉ before := by
      refine ih.imp ?_
      rintro x y ⟨before, after, rfl, hy⟩
      exact ⟨before, after ++ [p], by simp, hy⟩
    rw [List.foldl_concat, insertNew]
    split
    · exact hlonger
    · rename_i hp
      rw [List.contains_iff_mem, mem_collected] at hp
      refine List.pairwise_append.mpr ⟨hlonger, List.pairwise_singleton _ _, ?_⟩
      intro x hx y hy
      obtain rfl := List.mem_singleton.mp hy
      obtain ⟨before, after, rfl⟩ := List.append_of_mem (mem_collected.mp hx)
      exact ⟨before, after ++ [y], by simp, fun hy => hp (List.mem_append_left _ hy)⟩

end Collecting

section Walking

variable {a b : Line ℚ} {s t : Segment ℚ} {x y : Point ℚ}

/-- The pairs of segments of two lines in the order of the walk: the segments of the first line in
order, and with each of them those of the second in order. -/
def walk (a b : Line ℚ) : List (Segment ℚ × Segment ℚ) :=
  a.segments.flatMap fun s => b.segments.map fun t => (s, t)

/-- The step of the walk comes upon the point: its segments are not parallel and meet there. -/
def FoundAt (a b : Line ℚ) (step : ℕ) (x : Point ℚ) : Prop :=
  ∃ s t, (walk a b)[step]? = some (s, t) ∧ s.cross t ≠ 0 ∧ s.Covers x ∧ t.Covers x

/-- The walk visits every pair of segments. -/
theorem mem_walk : (s, t) ∈ walk a b ↔ s ∈ a.segments ∧ t ∈ b.segments := by
  simp [walk]

/-- The crossing points are collected along the walk. -/
theorem crossingPoints_eq (a b : Line ℚ) :
    (crossingPoints a b).points =
      ((walk a b).filterMap fun pair => segmentIntersection? pair.1 pair.2).foldl insertNew [] := by
  have hwalk : (walk a b).filterMap (fun pair => segmentIntersection? pair.1 pair.2) =
      a.segments.flatMap fun s => b.segments.filterMap fun t => segmentIntersection? s t := by
    rw [walk, List.filterMap_flatMap]
    simp only [List.filterMap_map]
    rfl
  rw [hwalk]
  rfl

/-- A step of the walk comes upon one point at most. -/
theorem FoundAt.unique {step : ℕ} (hx : FoundAt a b step x) (hy : FoundAt a b step y) : x = y := by
  obtain ⟨s, t, hstep, hc, hsx, htx⟩ := hx
  obtain ⟨s', t', hstep', -, hsy, hty⟩ := hy
  obtain ⟨rfl, rfl⟩ := Prod.mk.inj (Option.some.inj (hstep.symm.trans hstep'))
  exact eq_of_covers hc hsx htx hsy hty

/-- Where a point comes up among the crossings, with another one not before it, some step of the walk
has come upon the one and no earlier step upon the other. -/
theorem exists_step {before after : List (Point ℚ)}
    (h : (walk a b).filterMap (fun pair => segmentIntersection? pair.1 pair.2) =
      before ++ x :: after) (hy : y ∉ before) :
    ∃ step, FoundAt a b step x ∧ ∀ step', FoundAt a b step' y → step ≤ step' := by
  obtain ⟨early, rest, hwalk, hearly, hrest⟩ := List.filterMap_eq_append_iff.mp h
  obtain ⟨skipped, ⟨s, t⟩, late, rfl, hskipped, hx, -⟩ := List.filterMap_eq_cons_iff.mp hrest
  refine ⟨(early ++ skipped).length, ⟨s, t, ?_, segmentIntersection?_eq_some_iff.mp hx⟩, ?_⟩
  · rw [hwalk, ← List.append_assoc, List.getElem?_append_right le_rfl, Nat.sub_self,
      List.getElem?_cons_zero]
  · rintro step' ⟨s', t', hstep, hy'⟩
    by_contra hlt
    rw [not_le] at hlt
    rw [hwalk, ← List.append_assoc, List.getElem?_append_left hlt] at hstep
    have hfound := segmentIntersection?_eq_some_iff.mpr hy'
    rcases List.mem_append.mp (List.mem_of_getElem? hstep) with hmem | hmem
    · exact hy (hearly ▸ List.mem_filterMap.mpr ⟨(s', t'), hmem, hfound⟩)
    · simp [hskipped _ hmem] at hfound

/-- A crossing point is one that two segments which are not parallel share. -/
theorem mem_crossingPoints : x ∈ (crossingPoints a b).points ↔
    ∃ s ∈ a.segments, ∃ t ∈ b.segments, s.cross t ≠ 0 ∧ s.Covers x ∧ t.Covers x := by
  rw [crossingPoints_eq, mem_collected, List.mem_filterMap]
  simp only [Prod.exists, mem_walk, segmentIntersection?_eq_some_iff]
  constructor
  · rintro ⟨s, t, ⟨hs, ht⟩, hx⟩
    exact ⟨s, hs, t, ht, hx⟩
  · rintro ⟨s, hs, t, ht, hx⟩
    exact ⟨s, t, ⟨hs, ht⟩, hx⟩

/-- Swapping the lines changes no crossing point. -/
theorem mem_crossingPoints_swap :
    x ∈ (crossingPoints b a).points ↔ x ∈ (crossingPoints a b).points := by
  rw [mem_crossingPoints, mem_crossingPoints]
  constructor
  · rintro ⟨t, ht, s, hs, hc, htx, hsx⟩
    exact ⟨s, hs, t, ht, by rwa [cross_swap t s, neg_ne_zero], hsx, htx⟩
  · rintro ⟨s, hs, t, ht, hc, hsx, htx⟩
    exact ⟨t, ht, s, hs, by rwa [cross_swap s t, neg_ne_zero], htx, hsx⟩

/-- Crossing points are not repeated. -/
theorem nodup_crossingPoints (a b : Line ℚ) : (crossingPoints a b).points.Nodup := by
  rw [crossingPoints_eq]
  exact nodup_collected _

/-- The crossing points are listed in the order in which the walk first comes upon them. -/
theorem pairwise_crossingPoints (a b : Line ℚ) :
    (crossingPoints a b).points.Pairwise fun x y =>
      ∃ step, FoundAt a b step x ∧ ∀ step', FoundAt a b step' y → step < step' := by
  have hnodup := nodup_crossingPoints a b
  rw [crossingPoints_eq] at hnodup ⊢
  refine ((pairwise_collected _).and hnodup).imp ?_
  rintro x y ⟨⟨before, after, hsplit, hy⟩, hne⟩
  obtain ⟨step, hx, hfirst⟩ := exists_step hsplit hy
  refine ⟨step, hx, fun step' hy' => (hfirst step' hy').lt_of_ne ?_⟩
  rintro rfl
  exact hne (hx.unique hy')

/-- Lines with a crossing point intersect. -/
theorem linesIntersect_of_mem_crossingPoints (h : x ∈ (crossingPoints a b).points) :
    linesIntersect a b = true := by
  obtain ⟨s, hs, t, ht, -, hsx, htx⟩ := mem_crossingPoints.mp h
  have hmeet : segmentsIntersect s t = true := segmentsIntersect_iff_meets.mpr ⟨x, hsx, htx⟩
  exact List.any_eq_true.mpr ⟨s, hs, List.any_eq_true.mpr ⟨t, ht, hmeet⟩⟩

/-- The crossing points of two lines of any length. Each is listed once; they are the points where a
segment of one line meets one of the other that is not parallel to it; they come in the order in
which the walk first comes upon them; there are none unless the lines meet; and with the lines
swapped they are the same up to order. -/
theorem crossingPoints_characterised (a b : Line ℚ) :
    (crossingPoints a b).points.Nodup ∧
    (∀ x, x ∈ (crossingPoints a b).points ↔
      ∃ s ∈ a.segments, ∃ t ∈ b.segments, s.cross t ≠ 0 ∧ s.Covers x ∧ t.Covers x) ∧
    ((crossingPoints a b).points.Pairwise fun x y =>
      ∃ step, FoundAt a b step x ∧ ∀ step', FoundAt a b step' y → step < step') ∧
    ((crossingPoints a b).points ≠ [] → linesIntersect a b = true) ∧
    (crossingPoints b a).points.Perm (crossingPoints a b).points := by
  refine ⟨nodup_crossingPoints a b, fun x => mem_crossingPoints, pairwise_crossingPoints a b, ?_, ?_⟩
  · intro h
    obtain ⟨x, hx⟩ := List.exists_mem_of_ne_nil _ h
    exact linesIntersect_of_mem_crossingPoints hx
  · exact (List.perm_ext_iff_of_nodup (nodup_crossingPoints b a) (nodup_crossingPoints a b)).mpr
      fun x => mem_crossingPoints_swap

/-- A line that climbs to a vertex and falls again. -/
def ridge : Line ℚ := ⟨[⟨0, 0⟩, ⟨2, 2⟩, ⟨4, 0⟩]⟩

/-- A line that passes through both slopes of the ridge, and on its way back through the vertex. -/
def rope : Line ℚ := ⟨[⟨0, 1⟩, ⟨4, 1⟩, ⟨0, 3⟩]⟩

/-- The vertex is found on both slopes and listed once, in second place. -/
theorem crossingPoints_characterised_ridge :
    (crossingPoints ridge rope).points = [⟨1, 1⟩, ⟨2, 2⟩, ⟨3, 1⟩] ∧
      linesIntersect ridge rope = true := by
  have hpoints : (crossingPoints ridge rope).points = [⟨1, 1⟩, ⟨2, 2⟩, ⟨3, 1⟩] := by decide +kernel
  obtain ⟨-, -, -, hmeet, -⟩ := crossingPoints_characterised ridge rope
  exact ⟨hpoints, hmeet (hpoints ▸ List.cons_ne_nil _ _)⟩

end Walking

end Planar

end SpatialSql
