import SpatialSql.Proofs.Planar.Clipping
import SpatialSql.Proofs.Planar.Runs

/-!
# What the test for convex rings accepts

A ring is taken to be convex when its turns, the straight ones apart, all go the same way. Every
convex ring passes this test. A ring that passes need not be convex, since the test never looks
further than from one edge to the next. Without repeated vertices there is one gap only: a ring
that winds around more than once. If it has a single valley, it consists of two runs that bend
the same way, and each edge has all vertices on one side. With repeated vertices a second gap
opens. At a vertex that comes twice in a row both turns are straight, whatever way the ring
bends there.
-/

namespace SpatialSql

namespace Polygon

open Segment Planar

variable {a : Polygon ℚ} {τ σ : ℚ} {first k i j : ℕ}

/-- All turns that are not straight go to the left if `σ` is positive, and to the right if `σ` is
negative. -/
def Bends (a : Polygon ℚ) (σ : ℚ) : Prop := ∀ turn ∈ turns a, 0 ≤ turn * σ

/-- No two edges in a row turn the wrong way. -/
theorem Bends.cross_nonneg (h : a.Bends σ) (hpos : 0 < a.vertexCount) (i : ℕ) :
    0 ≤ (a.side i).cross (a.side (i + 1)) * σ := by
  have hmem : (a.side i).cross (a.side (i + 1)) ∈ turns a := by
    rw [turns_eq, List.mem_map]
    refine ⟨i % a.vertexCount, List.mem_range.mpr (Nat.mod_lt i hpos), ?_⟩
    rw [side_mod, ← side_mod a (i % a.vertexCount + 1), Nat.mod_add_mod, side_mod]
  exact h _ hmem

/-- How far the vertices are off the line of an edge, towards the side the ring bends to. -/
def offset (a : Polygon ℚ) (σ : ℚ) (i j : ℕ) : ℚ :=
  orientation (a.side i).start (a.side i).stop (a.vertexAt j) * σ

/-- Along an edge the offset changes by the cross product with the edge it is seen from. -/
theorem offset_succ (a : Polygon ℚ) (σ : ℚ) (i j : ℕ) :
    a.offset σ i (j + 1) = a.offset σ i j + (a.side i).cross (a.side j) * σ := by
  have hstep : orientation (a.side i).start (a.side i).stop (a.vertexAt (j + 1)) =
      orientation (a.side i).start (a.side i).stop (a.vertexAt j) + (a.side i).cross (a.side j) :=
    orientation_stop (a.side i) (a.side j)
  rw [offset, offset, hstep, add_mul]

/-- An edge starts on its own line. -/
theorem offset_self (a : Polygon ℚ) (σ : ℚ) (i : ℕ) : a.offset σ i i = 0 := by
  simp only [offset, orientation, side]
  ring

/-- Offsets repeat after one round. -/
theorem offset_add_vertexCount (a : Polygon ℚ) (σ : ℚ) (i j : ℕ) :
    a.offset σ i (j + a.vertexCount) = a.offset σ i j := by
  rw [offset, offset, vertexAt_add_vertexCount]

/-- Within a run, each edge is turned from every earlier one the way the ring bends. -/
theorem Bends.cross_of_leads (hbends : a.Bends σ) (hpos : 0 < a.vertexCount) (hij : i ≤ j)
    (hrun : ∀ m, i ≤ m → m ≤ j → (a.side (first + m)).Leads τ) :
    0 ≤ (a.side (first + i)).cross (a.side (first + j)) * σ := by
  induction j, hij using Nat.le_induction with
  | base => simp [cross, mul_comm]
  | succ j hij ih =>
    exact (hrun i le_rfl (hij.trans j.le_succ)).cross_trans (hrun j hij j.le_succ)
      (hrun (j + 1) (hij.trans j.le_succ) le_rfl)
      (ih fun m hm hmj => hrun m hm (hmj.trans j.le_succ)) (hbends.cross_nonneg hpos (first + j))

section Offsets

variable (h : a.Runs τ first k) (hbends : a.Bends σ)
include h hbends

/-- The vertices of its own run are on the inner side of an edge: each further edge leads away from
its line, and so does each edge before it, walked back. -/
theorem Runs.offset_out (hi : i < k) (hj : j ≤ k) : 0 ≤ a.offset σ (first + i) (first + j) := by
  rcases le_total i j with hij | hji
  · induction j, hij using Nat.le_induction with
    | base => exact (a.offset_self σ _).ge
    | succ j hij ih =>
      rw [← Nat.add_assoc, offset_succ]
      exact add_nonneg (ih (Nat.le_of_succ_le hj))
        (hbends.cross_of_leads h.vertexCount_pos hij fun m _ hmj => h.out m (hmj.trans_lt hj))
  · clear hj
    induction hji using Nat.decreasingInduction with
    | self => exact (a.offset_self σ _).ge
    | of_succ j hji ih =>
      have hcross := hbends.cross_of_leads h.vertexCount_pos hji.le fun m _ hmi => h.out m (hmi.trans_lt hi)
      rw [← Nat.add_assoc, offset_succ] at ih
      rw [cross_swap] at hcross
      linarith

/-- Along the other run, what once leads towards the line of an edge does so from there on. -/
theorem Runs.cross_back (hi : i < k) {l m : ℕ} (hkl : k ≤ l) (hlm : l ≤ m) (hm : m < a.vertexCount)
    (hl : (a.side (first + i)).cross (a.side (first + l)) * σ < 0) :
    (a.side (first + i)).cross (a.side (first + m)) * σ ≤ 0 := by
  have hlm' := hbends.cross_of_leads h.vertexCount_pos hlm fun n hln hnm =>
    h.back n (hkl.trans hln) (hnm.trans_lt hm)
  have htrans := (h.out i hi).cross_trans (σ := σ)
    (leads_reverse.mpr (h.back l hkl (hlm.trans_lt hm))) (leads_reverse.mpr (h.back m (hkl.trans hlm) hm))
    (by rw [cross_reverse]; linarith) (by rw [cross_reverse, reverse_cross]; linarith)
  rw [cross_reverse] at htrans
  linarith

/-- The vertices of the other run are on the inner side of an edge too: they get further off its line
before they get nearer, and the run ends on the inner side. -/
theorem Runs.offset_back (hi : i < k) (hkj : k ≤ j) (hj : j ≤ a.vertexCount) :
    0 ≤ a.offset σ (first + i) (first + j) := by
  by_contra hneg
  rw [not_le] at hneg
  have hnear : ∃ l, k ≤ l ∧ l < j ∧ (a.side (first + i)).cross (a.side (first + l)) * σ < 0 := by
    by_contra hfar
    push Not at hfar
    have hrise : ∀ m, k ≤ m → m ≤ j → 0 ≤ a.offset σ (first + i) (first + m) := by
      intro m hkm
      induction m, hkm using Nat.le_induction with
      | base => exact fun _ => h.offset_out hbends hi le_rfl
      | succ m hkm ih =>
        intro hmj
        rw [← Nat.add_assoc, offset_succ]
        exact add_nonneg (ih (Nat.le_of_succ_le hmj)) (hfar m hkm hmj)
    exact hneg.not_ge (hrise j hkj le_rfl)
  obtain ⟨l, hkl, hlj, hl⟩ := hnear
  have hfall : ∀ m, j ≤ m → m ≤ a.vertexCount →
      a.offset σ (first + i) (first + m) ≤ a.offset σ (first + i) (first + j) := by
    intro m hjm
    induction m, hjm using Nat.le_induction with
    | base => exact fun _ => le_rfl
    | succ m hjm ih =>
      intro hmn
      rw [← Nat.add_assoc, offset_succ]
      have hback := h.cross_back hbends hi hkl (hlj.le.trans hjm) hmn hl
      linarith [ih (Nat.le_of_succ_le hmn)]
  have hround := h.offset_out hbends hi (Nat.zero_le k)
  rw [Nat.add_zero, ← offset_add_vertexCount] at hround
  linarith [hfall a.vertexCount hj le_rfl]

/-- Seen from an edge of the rising run, no vertex is on the outer side. -/
theorem Runs.offset_nonneg (hi : i < k) (hj : j ≤ a.vertexCount) :
    0 ≤ a.offset σ (first + i) (first + j) := by
  rcases le_total j k with hjk | hkj
  · exact h.offset_out hbends hi hjk
  · exact h.offset_back hbends hi hkj hj

/-- A ring of two runs that bends one way has all vertices on that side of every edge. An edge of
the second run belongs to the first one when the ring is entered at the other end. -/
theorem Runs.inner (hclosed : a.Closed) {e : Segment ℚ} {p : Point ℚ} (he : e ∈ a.edges)
    (hp : p ∈ a.ring) : 0 ≤ orientation e.start e.stop p * σ := by
  obtain ⟨i, hi, rfl⟩ := hclosed.exists_side first he
  by_cases hik : i < k
  · obtain ⟨j, hj, rfl⟩ := hclosed.exists_vertexAt h.vertexCount_pos first hp
    exact h.offset_nonneg hbends hik hj.le
  · obtain ⟨j, hj, rfl⟩ := hclosed.exists_vertexAt h.vertexCount_pos (first + k) hp
    have hswap := h.swap.offset_nonneg hbends (i := i - k) (by omega) hj.le
    rwa [Nat.add_assoc first, Nat.add_sub_cancel' (not_lt.mp hik)] at hswap

end Offsets

end Polygon

namespace Planar

open Segment Coordinate

variable {a clip subject : Polygon ℚ}

/-- A ring is taken for convex if it has points and all its turns go one way. -/
theorem isConvex_iff : isConvex a = true ↔ a.ring ≠ [] ∧ (a.Bends 1 ∨ a.Bends (-1)) := by
  have hleft (x : ℚ) : (x ≠ 0 → 0 < x) ↔ 0 ≤ x * 1 := by
    rw [mul_one, le_iff_eq_or_lt, eq_comm, or_iff_not_imp_left]
  have hright (x : ℚ) : (x ≠ 0 → x < 0) ↔ 0 ≤ x * -1 := by
    rw [mul_neg_one, neg_nonneg, le_iff_eq_or_lt, or_iff_not_imp_left]
  simp only [isConvex, Polygon.Bends, Bool.and_eq_true, Bool.or_eq_true, Bool.not_eq_true',
    List.isEmpty_eq_false_iff, List.all_eq_true, List.mem_filter, bne_iff_ne, zero_exact,
    positive_exact, negative_exact, and_imp, hleft, hright]

/-- A clip is accepted exactly if it is taken for convex. -/
theorem exists_clipToConvex?_iff :
    (∃ out, clipToConvex? subject clip = some out) ↔ isConvex clip = true := by
  unfold clipToConvex?
  cases isConvex clip <;> simp

/-- The turns of a convex ring go the way it winds. -/
theorem Convex.bends (h : Convex a) (hclosed : a.Closed) (hpos : 0 < a.vertexCount) :
    a.Bends (sign (signedArea a)) := by
  intro turn hturn
  rw [turns_eq, List.mem_map] at hturn
  obtain ⟨i, -, rfl⟩ := hturn
  have hstop : inward a (a.side i) (a.side (i + 1)).start = 0 :=
    inward_eq_zero_of_covers (a.side i).covers_stop
  have hinner : 0 ≤ inward a (a.side i) (a.side (i + 1)).stop :=
    h _ ((hclosed.mem_edges_iff hpos).mpr ⟨i, rfl⟩) _ ((hclosed.mem_ring_iff hpos).mpr ⟨i + 2, rfl⟩)
  rwa [inward, orientation_stop, add_mul, ← inward, hstop, zero_add] at hinner

theorem sign_eq_of_mul_nonneg {x σ : ℚ} (hσ : σ = 1 ∨ σ = -1) (hx : x ≠ 0) (h : 0 ≤ x * σ) :
    sign x = σ := by
  change (if x < 0 then (-1 : ℚ) else 1) = σ
  rcases hσ with rfl | rfl
  · rw [if_neg (by linarith)]
  · rw [if_pos (lt_of_le_of_ne (by linarith) hx)]

/-- A ring of two runs that bends one way is convex. -/
theorem convex_of_runs {τ σ : ℚ} {first k : ℕ} (hclosed : a.Closed) (harea : signedArea a ≠ 0)
    (h : a.Runs τ first k) (hσ : σ = 1 ∨ σ = -1) (hbends : a.Bends σ) : Convex a := by
  have hfirst : a.vertexAt 0 ∈ a.ring := (hclosed.mem_ring_iff h.vertexCount_pos).mpr ⟨0, rfl⟩
  have hwinds : 0 ≤ signedArea a * σ :=
    signedArea_mul_nonneg hclosed fun e he => h.inner hbends hclosed he hfirst
  intro e he v hv
  rw [inward, sign_eq_of_mul_nonneg hσ harea hwinds]
  exact h.inner hbends hclosed he hv

/-- Without repeated vertices, a polygon that has an area is convex exactly if it is accepted for
clipping and has a single valley, so that its ring winds around once. -/
theorem convex_iff_accepted {points : List (Point ℚ)}
    (hclip : Polygon.ofPoints? points = some clip) (harea : signedArea clip ≠ 0)
    (hn : clip.ring.dropLast.Nodup) (subject : Polygon ℚ) :
    Convex clip ↔ (∃ out, clipToConvex? subject clip = some out) ∧ ∃! v, Valley clip v := by
  have hclosed := Polygon.closed_of_ofPoints? hclip
  rw [exists_clipToConvex?_iff, isConvex_iff]
  constructor
  · intro h
    have hpos : 0 < clip.vertexCount := Nat.zero_lt_of_lt (two_le_vertexCount hclosed harea)
    refine ⟨⟨?_, ?_⟩, h.existsUnique_valley hclosed harea hn⟩
    · exact List.ne_nil_of_mem ((hclosed.mem_ring_iff hpos).mpr ⟨0, rfl⟩)
    · have hbends := h.bends hclosed hpos
      rcases sign_eq_one_or_neg_one (signedArea clip) with hsign | hsign
      · exact .inl (hsign ▸ hbends)
      · exact .inr (hsign ▸ hbends)
  · rintro ⟨⟨-, hbends⟩, hvalley⟩
    obtain ⟨first, k, hruns⟩ := exists_runs hclosed hn hvalley
    rcases hbends with hbends | hbends
    · exact convex_of_runs hclosed harea hruns (.inl rfl) hbends
    · exact convex_of_runs hclosed harea hruns (.inr rfl) hbends

/-- A five-pointed star drawn in one line. -/
def star : Polygon ℚ := ⟨[⟨0, 5⟩, ⟨3, -4⟩, ⟨-5, 1⟩, ⟨5, 1⟩, ⟨-3, -4⟩, ⟨0, 5⟩]⟩

/-- The unit square is convex, so it is accepted and has a single valley. The star is accepted and not
convex, so it has more than one. -/
theorem convex_iff_accepted_star :
    (Convex Polygon.unitSquare ∧ ∃! v, Valley Polygon.unitSquare v) ∧
      (∃ out, clipToConvex? Polygon.unitSquare star = some out) ∧ ¬Convex star ∧
        ¬∃! v, Valley star v := by
  have hsquare : Polygon.ofPoints? [⟨0, 0⟩, ⟨1, 0⟩, ⟨1, 1⟩, ⟨0, 1⟩] =
        some (Polygon.unitSquare : Polygon ℚ) ∧ signedArea (Polygon.unitSquare : Polygon ℚ) ≠ 0 ∧
      (Polygon.unitSquare : Polygon ℚ).ring.dropLast.Nodup ∧ Convex Polygon.unitSquare := by
    decide +kernel
  have hstar : Polygon.ofPoints? [⟨0, 5⟩, ⟨3, -4⟩, ⟨-5, 1⟩, ⟨5, 1⟩, ⟨-3, -4⟩] = some star ∧
      signedArea star ≠ 0 ∧ star.ring.dropLast.Nodup ∧ isConvex star = true ∧ ¬Convex star := by
    decide +kernel
  obtain ⟨hpoints, harea, hn, hconvex⟩ := hsquare
  obtain ⟨hpoints', harea', hn', hturns, hnot⟩ := hstar
  have haccepted : ∃ out, clipToConvex? Polygon.unitSquare star = some out :=
    exists_clipToConvex?_iff.mpr hturns
  refine ⟨⟨hconvex, ?_⟩, haccepted, hnot, fun hvalley => ?_⟩
  · exact ((convex_iff_accepted hpoints harea hn Polygon.unitSquare).mp hconvex).2
  · exact hnot ((convex_iff_accepted hpoints' harea' hn' Polygon.unitSquare).mpr ⟨haccepted, hvalley⟩)

/-- A square with a notch, whose tip comes twice in a row. -/
def doubledNotch : Polygon ℚ :=
  ⟨[⟨0, 0⟩, ⟨2, 0⟩, ⟨1, 1⟩, ⟨1, 1⟩, ⟨2, 2⟩, ⟨0, 2⟩, ⟨0, 0⟩]⟩

/-- Not every polygon that is accepted for clipping is convex: a doubled vertex hides the turn of the
notch. -/
theorem not_forall_accepted_convex :
    ¬∀ (points points' : List (Point ℚ)) (subject clip : Polygon ℚ) (out : List (Point ℚ)),
      Polygon.ofPoints? points = some subject → Polygon.ofPoints? points' = some clip →
        signedArea clip ≠ 0 → clipToConvex? subject clip = some out → Convex clip := by
  intro h
  have hnotch : Polygon.ofPoints? [⟨0, 0⟩, ⟨1, 0⟩, ⟨1, 1⟩, ⟨0, 1⟩] =
        some (Polygon.unitSquare : Polygon ℚ) ∧
      Polygon.ofPoints? [⟨0, 0⟩, ⟨2, 0⟩, ⟨1, 1⟩, ⟨1, 1⟩, ⟨2, 2⟩, ⟨0, 2⟩] = some doubledNotch ∧
      signedArea doubledNotch ≠ 0 ∧
      clipToConvex? Polygon.unitSquare doubledNotch = some [⟨0, 0⟩, ⟨1, 1⟩, ⟨0, 1⟩] ∧
      ¬Convex doubledNotch := by
    decide +kernel
  obtain ⟨hsquare, hpoints, harea, hout, hnot⟩ := hnotch
  exact hnot (h _ _ _ _ _ hsquare hpoints harea hout)

end Planar

end SpatialSql
