import SpatialSql.Proofs.Planar.Ring
import Mathlib.Data.Prod.Lex
import Mathlib.Data.Finset.Max
import Mathlib.Data.Nat.ModEq

/-!
# How a ring rises and falls

An edge leads upwards or downwards; a level one counts as leading upwards if it leads to the
right. Where a ring falls to a vertex and rises from it again, it has a valley. A ring without
repeated vertices that has a single valley rises in one run from there to its peak, and falls
in one run back. A convex ring is of this kind: all of it lies above any of its valleys.
-/

namespace SpatialSql

section Upward

variable {dx dy ex ey α β : ℚ}

/-- The direction leads upwards, or level to the right. -/
def Upward (dx dy : ℚ) : Prop := 0 < dy ∨ dy = 0 ∧ 0 < dx

/-- What leads upward does not fall. -/
theorem Upward.nonneg (h : Upward dx dy) : 0 ≤ dy := by
  rcases h with h | ⟨rfl, -⟩
  · exact h.le
  · exact le_rfl

/-- Leading upward does not depend on length. -/
theorem Upward.scale (h : Upward dx dy) (hα : 0 < α) : Upward (α * dx) (α * dy) := by
  rcases h with h | ⟨rfl, h⟩
  · exact .inl (mul_pos hα h)
  · exact .inr ⟨mul_zero α, mul_pos hα h⟩

/-- Two ways upward lead upward together. -/
theorem Upward.add (h : Upward dx dy) (h' : Upward ex ey) : Upward (dx + ex) (dy + ey) := by
  rcases h with h | ⟨rfl, h⟩ <;> rcases h' with h' | ⟨rfl, h'⟩
  · exact .inl (add_pos h h')
  · exact .inl (by rwa [add_zero])
  · exact .inl (by rwa [zero_add])
  · exact .inr ⟨add_zero 0, add_pos h h'⟩

/-- The way back leads downward. -/
theorem Upward.not_neg (h : Upward dx dy) : ¬Upward (-dx) (-dy) := by
  rintro (h' | ⟨h₀, h'⟩) <;> rcases h with h | ⟨rfl, h⟩ <;> linarith

/-- Every direction leads upward or its opposite does. -/
theorem upward_or_neg (h : dx ≠ 0 ∨ dy ≠ 0) : Upward dx dy ∨ Upward (-dx) (-dy) := by
  rcases lt_trichotomy dy 0 with hy | rfl | hy
  · exact .inr (.inl (neg_pos.mpr hy))
  · have hx := h.resolve_right (not_not.mpr rfl)
    rcases lt_or_gt_of_ne hx with hx | hx
    · exact .inr (.inr ⟨neg_zero, neg_pos.mpr hx⟩)
    · exact .inl (.inr ⟨rfl, hx⟩)
  · exact .inl (.inl hy)

/-- What is combined of two upward directions leads upwards, unless it is nothing at all. -/
theorem Upward.combine (hα : 0 ≤ α) (hβ : 0 ≤ β) (h : Upward dx dy) (h' : Upward ex ey) :
    (α = 0 ∧ β = 0) ∨ Upward (α * dx + β * ex) (α * dy + β * ey) := by
  rcases hα.eq_or_lt with rfl | hα <;> rcases hβ.eq_or_lt with rfl | hβ
  · exact .inl ⟨rfl, rfl⟩
  · exact .inr (by simpa using h'.scale hβ)
  · exact .inr (by simpa using h.scale hα)
  · exact .inr ((h.scale hα).add (h'.scale hβ))

end Upward

namespace Segment

variable {s t r : Segment ℚ} {τ σ : ℚ}

/-- The segment leads upwards if `τ` is positive, and downwards if `τ` is negative. -/
def Leads (τ : ℚ) (s : Segment ℚ) : Prop :=
  Upward (τ * (s.stop.x - s.start.x)) (τ * (s.stop.y - s.start.y))

instance (τ : ℚ) (s : Segment ℚ) : Decidable (s.Leads τ) := inferInstanceAs (Decidable (_ ∨ _ ∧ _))

/-- A segment does not lead both ways. -/
theorem Leads.not_neg (h : s.Leads τ) : ¬s.Leads (-τ) := by
  intro h'
  apply Upward.not_neg h
  rwa [← neg_mul, ← neg_mul]

/-- What leads anywhere has a length. -/
theorem Leads.ne (h : s.Leads τ) : s.start ≠ s.stop := by
  intro heq
  rw [Leads, heq, sub_self, sub_self, mul_zero] at h
  rcases h with h | ⟨-, h⟩ <;> exact lt_irrefl 0 h

/-- The reversed segment leads the other way. -/
theorem leads_reverse : s.reverse.Leads τ ↔ s.Leads (-τ) := by
  rw [Leads, Leads, reverse, neg_mul_comm, neg_mul_comm, neg_sub, neg_sub]

/-- A segment with a length leads one way or the other. -/
theorem leads_or_neg (hτ : τ ≠ 0) (hs : s.start ≠ s.stop) : s.Leads τ ∨ s.Leads (-τ) := by
  rw [Leads, Leads, neg_mul, neg_mul]
  apply upward_or_neg
  by_contra hzero
  rw [not_or, not_not, not_not, mul_eq_zero, mul_eq_zero] at hzero
  exact hs (Point.ext (sub_eq_zero.mp (hzero.1.resolve_left hτ)).symm
    (sub_eq_zero.mp (hzero.2.resolve_left hτ)).symm)

/-- Turning one segment round negates the cross product. -/
theorem cross_reverse (s t : Segment ℚ) : s.cross t.reverse = -s.cross t := by
  simp only [cross, reverse]
  ring

/-- Among segments that lead the same way, to be turned from one to the next is transitive: the
middle direction times the outer cross product is made up of the outer directions. -/
theorem Leads.cross_trans (hs : s.Leads τ) (ht : t.Leads τ) (hr : r.Leads τ)
    (hst : 0 ≤ s.cross t * σ) (htr : 0 ≤ t.cross r * σ) : 0 ≤ s.cross r * σ := by
  by_contra hneg
  rw [not_le] at hneg
  have hx : t.cross r * σ * (τ * (s.stop.x - s.start.x)) +
      s.cross t * σ * (τ * (r.stop.x - r.start.x)) =
      s.cross r * σ * (τ * (t.stop.x - t.start.x)) := by
    simp only [cross]
    ring
  have hy : t.cross r * σ * (τ * (s.stop.y - s.start.y)) +
      s.cross t * σ * (τ * (r.stop.y - r.start.y)) =
      s.cross r * σ * (τ * (t.stop.y - t.start.y)) := by
    simp only [cross]
    ring
  have hback : Upward (-(s.cross r * σ * (τ * (t.stop.x - t.start.x))))
      (-(s.cross r * σ * (τ * (t.stop.y - t.start.y)))) := by
    have hscaled := Upward.scale ht (neg_pos.mpr hneg)
    rwa [neg_mul, neg_mul] at hscaled
  rcases Upward.combine htr hst hs hr with ⟨htr, hst⟩ | hup
  · rw [htr, hst, zero_mul, zero_mul, add_zero] at hx hy
    rw [← hx, ← hy, neg_zero] at hback
    rcases hback with h | ⟨-, h⟩ <;> exact lt_irrefl 0 h
  · rw [hx, hy] at hup
    exact hup.not_neg hback

end Segment

namespace Polygon

open Segment

variable {a : Polygon ℚ} {τ : ℚ} {first k i : ℕ} {e : Segment ℚ} {p : Point ℚ}

/-- Every edge is met within one round, wherever it starts. -/
theorem Closed.exists_side (h : a.Closed) (first : ℕ) (he : e ∈ a.edges) :
    ∃ i < a.vertexCount, a.side (first + i) = e := by
  obtain ⟨i, hi, rfl⟩ := List.mem_map.mp ((h.perm_edges first).mem_iff.mpr he)
  exact ⟨i, List.mem_range.mp hi, rfl⟩

/-- Every vertex is met within one round, wherever it starts. -/
theorem Closed.exists_vertexAt (h : a.Closed) (hpos : 0 < a.vertexCount) (first : ℕ)
    (hp : p ∈ a.ring) : ∃ i < a.vertexCount, a.vertexAt (first + i) = p := by
  obtain ⟨j, rfl⟩ := (h.mem_ring_iff hpos).mp hp
  obtain ⟨i, hi, hside⟩ := h.exists_side first ((h.mem_edges_iff hpos).mpr ⟨j, rfl⟩)
  exact ⟨i, hi, congrArg Segment.start hside⟩

/-- The edges repeat after one round. -/
theorem side_add_vertexCount (a : Polygon ℚ) (i : ℕ) : a.side (i + a.vertexCount) = a.side i := by
  rw [← side_mod, Nat.add_mod_right, side_mod]

/-- Without repeated vertices, a vertex does not come up again before a full turn. -/
theorem vertexAt_add_ne (hn : a.ring.dropLast.Nodup) {d : ℕ} (hd : 0 < d) (hdn : d < a.vertexCount)
    (i : ℕ) : a.vertexAt (i + d) ≠ a.vertexAt i := by
  intro h
  have hmod : i + d ≡ i + 0 [MOD a.vertexCount] := mod_eq_of_vertexAt_eq hn (hd.trans hdn) h
  have hzero : d % a.vertexCount = 0 % a.vertexCount := hmod.add_left_cancel'
  rw [Nat.mod_eq_of_lt hdn, Nat.zero_mod] at hzero
  exact hd.ne' hzero

/-- Without repeated vertices every edge has a length. -/
theorem start_ne_stop (hn : a.ring.dropLast.Nodup) (hcount : 1 < a.vertexCount) (i : ℕ) :
    (a.side i).start ≠ (a.side i).stop :=
  (vertexAt_add_ne hn one_pos hcount i).symm

/-- From the vertex with index `first`, the ring leads one way for `k` edges and the other way for the
rest of them. -/
structure Runs (a : Polygon ℚ) (τ : ℚ) (first k : ℕ) : Prop where
  pos : 0 < k
  lt : k < a.vertexCount
  out : ∀ i, i < k → (a.side (first + i)).Leads τ
  back : ∀ i, k ≤ i → i < a.vertexCount → (a.side (first + i)).Leads (-τ)

/-- A ring with runs has vertices. -/
theorem Runs.vertexCount_pos (h : a.Runs τ first k) : 0 < a.vertexCount := h.pos.trans h.lt

/-- The same runs, entered at the other end. -/
theorem Runs.swap (h : a.Runs τ first k) : a.Runs (-τ) (first + k) (a.vertexCount - k) where
  pos := Nat.sub_pos_of_lt h.lt
  lt := Nat.sub_lt h.vertexCount_pos h.pos
  out i hi := by
    rw [Nat.add_assoc]
    exact h.back (k + i) (Nat.le_add_right k i) (by omega)
  back i hi hin := by
    have hround : first + k + i = first + (i - (a.vertexCount - k)) + a.vertexCount := by
      have := h.lt
      omega
    rw [neg_neg, hround, side_add_vertexCount]
    exact h.out _ (by have := h.lt; omega)

end Polygon

namespace Planar

open Segment

variable {a : Polygon ℚ} {τ : ℚ} {e f : Segment ℚ} {p v : Point ℚ}

section Valleys

/-- A vertex that the ring falls to and rises from. -/
def Valley (a : Polygon ℚ) (v : Point ℚ) : Prop :=
  ∃ e ∈ a.edges, ∃ f ∈ a.edges, e.stop = v ∧ f.start = v ∧ e.Leads (-1) ∧ f.Leads 1

/-- A ring with an edge has vertices. -/
theorem vertexCount_pos_of_mem (hclosed : a.Closed) (he : e ∈ a.edges) : 0 < a.vertexCount := by
  rw [hclosed.edges_eq] at he
  obtain ⟨i, hi, -⟩ := List.mem_map.mp he
  exact Nat.zero_lt_of_lt (List.mem_range.mp hi)

/-- At a valley the ring falls along one edge and rises along the next. -/
theorem Valley.exists_index (hclosed : a.Closed) (hn : a.ring.dropLast.Nodup) (h : Valley a v) :
    ∃ i, a.vertexAt (i + 1) = v ∧ (a.side i).Leads (-1) ∧ (a.side (i + 1)).Leads 1 := by
  obtain ⟨e, he, f, hf, hev, hfv, hfall, hrise⟩ := h
  have hpos := vertexCount_pos_of_mem hclosed he
  obtain ⟨i, rfl⟩ := (hclosed.mem_edges_iff hpos).mp he
  obtain ⟨j, rfl⟩ := (hclosed.mem_edges_iff hpos).mp hf
  have hmod := Polygon.mod_eq_of_vertexAt_eq hn hpos (hev.trans hfv.symm)
  refine ⟨i, hev, hfall, ?_⟩
  rwa [← Polygon.side_mod, hmod, Polygon.side_mod]

/-- A ring with a single valley rises from there in one run and falls back in another. Where it rose
again it would have a second valley. -/
theorem exists_runs (hclosed : a.Closed) (hn : a.ring.dropLast.Nodup) (h : ∃! v, Valley a v) :
    ∃ first k, a.Runs 1 first k := by
  obtain ⟨v, hv, hunique⟩ := h
  obtain ⟨i, rfl, hfall, hrise⟩ := hv.exists_index hclosed hn
  have hpos : 0 < a.vertexCount := vertexCount_pos_of_mem hclosed hv.choose_spec.1
  have hcount : 1 < a.vertexCount := by
    refine lt_of_le_of_ne hpos fun hone => hrise.not_neg ?_
    rwa [hone, Polygon.side_add_vertexCount]
  have hlast : ¬(a.side (i + 1 + (a.vertexCount - 1))).Leads 1 := by
    rw [Nat.add_assoc, Nat.add_sub_cancel' hpos, Polygon.side_add_vertexCount]
    exact fun hrise => hrise.not_neg hfall
  have hexists : ∃ m, ¬(a.side (i + 1 + m)).Leads 1 := ⟨_, hlast⟩
  refine ⟨i + 1, Nat.find hexists, ?_, ?_, ?_, ?_⟩
  · rw [Nat.find_pos, not_not]
    exact hrise
  · exact lt_of_le_of_lt (Nat.find_min' hexists hlast) (Nat.sub_lt hpos one_pos)
  · intro m hm
    exact not_not.mp (Nat.find_min hexists hm)
  · intro m hm
    have hfalls (m : ℕ) (hm : ¬(a.side (i + 1 + m)).Leads 1) : (a.side (i + 1 + m)).Leads (-1) :=
      (leads_or_neg one_ne_zero (Polygon.start_ne_stop hn hcount _)).resolve_left hm
    induction m, hm using Nat.le_induction with
    | base => exact fun _ => hfalls _ (Nat.find_spec hexists)
    | succ m hm ih =>
      intro hlt
      refine hfalls _ fun hrise => ?_
      have hvalley : Valley a (a.vertexAt (i + 1 + (m + 1))) :=
        ⟨_, (hclosed.mem_edges_iff hpos).mpr ⟨i + 1 + m, rfl⟩, _,
          (hclosed.mem_edges_iff hpos).mpr ⟨i + 1 + (m + 1), rfl⟩, rfl, rfl,
          ih (Nat.lt_of_succ_lt hlt), hrise⟩
      exact Polygon.vertexAt_add_ne hn (Nat.succ_pos m) hlt _ (hunique _ hvalley)

/-- A ring with an area has more than one vertex. -/
theorem two_le_vertexCount (hclosed : a.Closed) (harea : signedArea a ≠ 0) : 1 < a.vertexCount := by
  by_contra hcount
  refine harea (signedArea_eq_zero hclosed (o := a.vertexAt 0) fun e he => ?_)
  have hone : a.vertexCount = 1 := by
    have := vertexCount_pos_of_mem hclosed he
    omega
  obtain ⟨i, rfl⟩ := (hclosed.mem_edges_iff (by omega)).mp he
  have hpoint : (a.side i).stop = (a.side i).start := by
    have hround := a.vertexAt_add_vertexCount i
    rwa [hone] at hround
  rw [hpoint]
  simp only [orientation]
  ring

/-- Some vertex has all others above it. -/
theorem exists_lowest (a : Polygon ℚ) (hpos : 0 < a.vertexCount) :
    ∃ i, ∀ j, a.vertexAt j = a.vertexAt i ∨ (⟨a.vertexAt i, a.vertexAt j⟩ : Segment ℚ).Leads 1 := by
  obtain ⟨i, -, hmin⟩ := Finset.exists_min_image (Finset.range a.vertexCount)
    (fun i => toLex ((a.vertexAt i).y, (a.vertexAt i).x)) ⟨0, Finset.mem_range.mpr hpos⟩
  refine ⟨i, fun j => ?_⟩
  have hle := hmin (j % a.vertexCount) (Finset.mem_range.mpr (Nat.mod_lt j hpos))
  rw [Polygon.vertexAt_mod, Prod.Lex.toLex_le_toLex] at hle
  simp only [Leads, Upward, one_mul, sub_pos, sub_eq_zero]
  rcases hle with hy | ⟨hy, hx⟩
  · exact .inr (.inl hy)
  · rcases hx.eq_or_lt with hx | hx
    · exact .inl (Point.ext hx.symm hy.symm)
    · exact .inr (.inr ⟨hy.symm, hx⟩)

/-- A ring without repeated vertices has a valley. -/
theorem exists_valley (hclosed : a.Closed) (hn : a.ring.dropLast.Nodup) (hcount : 1 < a.vertexCount) :
    ∃ v, Valley a v := by
  have hpos : 0 < a.vertexCount := Nat.zero_lt_of_lt hcount
  obtain ⟨i, hlowest⟩ := exists_lowest a hpos
  have hstop := Polygon.stop_side_previous hpos i
  refine ⟨a.vertexAt i, a.side (i + (a.vertexCount - 1)), (hclosed.mem_edges_iff hpos).mpr ⟨_, rfl⟩,
    a.side i, (hclosed.mem_edges_iff hpos).mpr ⟨_, rfl⟩, hstop, rfl, ?_, ?_⟩
  · have hne : a.vertexAt (i + (a.vertexCount - 1)) ≠ a.vertexAt i :=
      Polygon.vertexAt_add_ne hn (by omega) (by omega) i
    rw [← leads_reverse, reverse, hstop]
    exact (hlowest _).resolve_left hne
  · exact (hlowest _).resolve_left (Polygon.vertexAt_add_ne hn one_pos hcount i)

end Valleys

section Convex

/-- Every vertex lies on the inner side of every edge, or on its line. -/
def Convex (a : Polygon ℚ) : Prop := ∀ e ∈ a.edges, ∀ v ∈ a.ring, 0 ≤ inward a e v

instance (a : Polygon ℚ) : Decidable (Convex a) :=
  inferInstanceAs (Decidable (∀ e ∈ a.edges, ∀ v ∈ a.ring, 0 ≤ inward a e v))

/-- Where a convex ring changes between falling and rising, it makes a proper turn. Otherwise the
second edge would lead back over the first, with no vertex off their common line. -/
theorem Convex.turn_pos (h : Convex a) (hclosed : a.Closed) (harea : signedArea a ≠ 0)
    (he : e ∈ a.edges) (hf : f ∈ a.edges) (hef : e.stop = f.start) (hin : e.Leads (-τ))
    (hout : f.Leads τ) : 0 < inward a e f.stop := by
  refine lt_of_le_of_ne (h e he _ (Polygon.mem_ring_of_mem_edges hf).2) fun hzero => ?_
  obtain ⟨l, hl⟩ := exists_along_of_orientation_eq_zero hin.ne (inward_eq_zero_iff.mp hzero.symm)
  have hdir : f.stop.x - f.start.x = (l - 1) * (e.stop.x - e.start.x) ∧
      f.stop.y - f.start.y = (l - 1) * (e.stop.y - e.start.y) := by
    rw [← hl, ← hef, along]
    constructor <;> ring
  have hback : l < 1 := by
    by_contra hge
    rcases (not_lt.mp hge).eq_or_lt with rfl | hgt
    · exact hout.ne (by rw [← hl, along_one, hef])
    · have hscaled := Upward.scale hin (sub_pos.mpr hgt)
      have hx : (l - 1) * (-τ * (e.stop.x - e.start.x)) = -(τ * (f.stop.x - f.start.x)) := by
        rw [hdir.1]
        ring
      have hy : (l - 1) * (-τ * (e.stop.y - e.start.y)) = -(τ * (f.stop.y - f.start.y)) := by
        rw [hdir.2]
        ring
      rw [hx, hy] at hscaled
      exact Upward.not_neg hout hscaled
  have hboth (v : Point ℚ) : inward a f v = (l - 1) * inward a e v := by
    rw [inward, inward, orientation, orientation, hdir.1, hdir.2, ← hef]
    ring
  have hline : ∀ v ∈ a.ring, orientation e.start e.stop v = 0 := by
    intro v hv
    have hev := h e he v hv
    have hfv := h f hf v hv
    rw [hboth] at hfv
    rw [← inward_eq_zero_iff (a := a)]
    nlinarith
  exact harea (signedArea_eq_zero_of_line hclosed hin.ne hline)

/-- In the frame of two edges that follow each other, a point is told by its distances from them. -/
theorem inward_frame (a : Polygon ℚ) (hef : e.stop = f.start) (p : Point ℚ) :
    inward a e f.stop * (p.x - f.start.x) =
        inward a e p * (f.stop.x - f.start.x) + inward a f p * (e.start.x - e.stop.x) ∧
      inward a e f.stop * (p.y - f.start.y) =
        inward a e p * (f.stop.y - f.start.y) + inward a f p * (e.start.y - e.stop.y) := by
  simp only [inward, orientation, hef]
  constructor <;> ring

/-- What lies on the inner side of both edges at a valley lies above it, and below a peak. -/
theorem eq_or_leads_of_inward (hturn : 0 < inward a e f.stop) (hef : e.stop = f.start)
    (hin : e.Leads (-τ)) (hout : f.Leads τ) (hep : 0 ≤ inward a e p) (hfp : 0 ≤ inward a f p) :
    p = f.start ∨ (⟨f.start, p⟩ : Segment ℚ).Leads τ := by
  obtain ⟨hx, hy⟩ := inward_frame a hef p
  rw [← leads_reverse] at hin
  rcases Upward.combine hep hfp hout hin with ⟨hep, hfp⟩ | hup
  · rw [hep, hfp, zero_mul, zero_mul, add_zero, mul_eq_zero, or_iff_right hturn.ne',
      sub_eq_zero] at hx hy
    exact .inl (Point.ext hx hy)
  · have hx' : inward a e p * (τ * (f.stop.x - f.start.x)) +
        inward a f p * (τ * (e.reverse.stop.x - e.reverse.start.x)) =
        inward a e f.stop * (τ * (p.x - f.start.x)) := by
      simp only [reverse]
      linear_combination -τ * hx
    have hy' : inward a e p * (τ * (f.stop.y - f.start.y)) +
        inward a f p * (τ * (e.reverse.stop.y - e.reverse.start.y)) =
        inward a e f.stop * (τ * (p.y - f.start.y)) := by
      simp only [reverse]
      linear_combination -τ * hy
    have hscaled := hup.scale (inv_pos.mpr hturn)
    rw [hx', hy', inv_mul_cancel_left₀ hturn.ne', inv_mul_cancel_left₀ hturn.ne'] at hscaled
    exact .inr hscaled

/-- A convex ring without repeated vertices has a single valley. -/
theorem Convex.existsUnique_valley (h : Convex a) (hclosed : a.Closed) (harea : signedArea a ≠ 0)
    (hn : a.ring.dropLast.Nodup) : ∃! v, Valley a v := by
  have habove {v p : Point ℚ} (hv : Valley a v) (hp : p ∈ a.ring) :
      p = v ∨ (⟨v, p⟩ : Segment ℚ).Leads 1 := by
    obtain ⟨e, he, f, hf, hev, rfl, hin, hout⟩ := hv
    exact eq_or_leads_of_inward (h.turn_pos hclosed harea he hf hev hin hout) hev hin hout
      (h e he p hp) (h f hf p hp)
  have hring {v : Point ℚ} (hv : Valley a v) : v ∈ a.ring := by
    obtain ⟨e, he, -, -, rfl, -⟩ := hv
    exact (Polygon.mem_ring_of_mem_edges he).2
  obtain ⟨v, hv⟩ := exists_valley hclosed hn (two_le_vertexCount hclosed harea)
  refine ⟨v, hv, fun v' hv' => ?_⟩
  rcases habove hv (hring hv') with heq | hup
  · exact heq
  · rcases habove hv' (hring hv) with heq | hdown
    · exact heq.symm
    · exact absurd (leads_reverse.mp hdown) hup.not_neg

end Convex

end Planar

end SpatialSql
