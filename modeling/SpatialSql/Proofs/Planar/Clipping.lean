import SpatialSql.Proofs.Geometry.Bounds
import SpatialSql.Proofs.Planar.Ring

/-!
# What is left after clipping

A cut along one edge keeps the vertices on its inner side and adds points between vertices, where
the ring passes the line of the edge. So whatever holds of all vertices and between any two
points it holds of, is kept by every cut: the inner sides of the edges cut along before, and the
box around the subject. No vertex that is on the inner side of all edges gets lost, neither by
the cuts nor when repeated points are dropped at the end.
-/

namespace SpatialSql.Planar

open Segment Coordinate

variable {w : ℚ} {e : Segment ℚ} {p q r v : Point ℚ} {ring : List (Point ℚ)}
  {edges : List (Segment ℚ)} {P : Point ℚ → Prop}

section Cuts

/-- The property passes on to every point between two that have it. -/
def KeptBetween (P : Point ℚ → Prop) : Prop :=
  ∀ s : Segment ℚ, P s.start → P s.stop → ∀ p, s.Covers p → P p

/-- A side of a line is kept between two of its points. -/
theorem keptBetween_innerSide (w : ℚ) (e : Segment ℚ) :
    KeptBetween fun p => innerSide w e p = true := by
  rintro s hstart hstop p ⟨u, hu₀, hu₁, rfl⟩
  rw [innerSide_iff] at hstart hstop ⊢
  rw [orientation_stop] at hstop
  rw [orientation_along]
  have hmix := add_nonneg (mul_nonneg (sub_nonneg.mpr hu₁) hstart) (mul_nonneg hu₀ hstop)
  linarith

/-- A box is kept between two of its points. -/
theorem keptBetween_holds (b : Bounds ℚ) : KeptBetween b.Holds :=
  fun _ hstart hstop _ hp => hstart.covers hstop hp

/-- Two such properties are kept together. -/
theorem KeptBetween.and {Q : Point ℚ → Prop} (hP : KeptBetween P) (hQ : KeptBetween Q) :
    KeptBetween fun p => P p ∧ Q p :=
  fun s hstart hstop p hp =>
    ⟨hP s hstart.1 hstop.1 p hp, hQ s hstart.2 hstop.2 p hp⟩

/-- Points on different sides have orientations of different signs. -/
theorem orientation_mul_nonpos (hside : innerSide w e p ≠ innerSide w e q) :
    orientation e.start e.stop p * orientation e.start e.stop q ≤ 0 := by
  have hprod {x y : ℚ} (hx : 0 ≤ x * w) (hy : y * w < 0) : x * y ≤ 0 := by
    have hw : 0 < w * w := mul_self_pos.mpr (right_ne_zero_of_mul hy.ne)
    have hmul : x * y * (w * w) ≤ 0 := by
      calc x * y * (w * w) = x * w * (y * w) := by ring
        _ ≤ 0 := mul_nonpos_of_nonneg_of_nonpos hx hy.le
    exact nonpos_of_mul_nonpos_left hmul hw
  rw [ne_eq, Bool.eq_iff_iff, innerSide_iff, innerSide_iff] at hside
  by_cases hp : 0 ≤ orientation e.start e.stop p * w
  · exact hprod hp (not_le.mp fun hq => hside (iff_of_true hp hq))
  · rw [mul_comm]
    exact hprod (not_not.mp fun hq => hside (iff_of_false hp hq)) (not_le.mp hp)

/-- Between points on different sides of an edge, its line is met at a point between them. -/
theorem covers_of_meetEdgeLine? (hside : innerSide w e p ≠ innerSide w e q)
    (h : meetEdgeLine? p q e = some r) :
    (⟨p, q⟩ : Segment ℚ).Covers r ∧ innerSide w e r = true := by
  simp only [meetEdgeLine?] at h
  split at h
  · contradiction
  · rename_i hne
    rw [beq_iff_eq] at hne
    have hpq := sub_ne_zero.mpr hne
    obtain rfl := Option.some.inj h
    have hratio := ratio_of_mul_nonpos hpq
      (by rw [sub_sub_cancel]; exact orientation_mul_nonpos hside)
    refine ⟨⟨_, hratio.1, hratio.2, rfl⟩, ?_⟩
    have hline : orientation e.start e.stop ((⟨p, q⟩ : Segment ℚ).along
        (orientation e.start e.stop p /
          (orientation e.start e.stop p - orientation e.start e.stop q))) = 0 := by
      have hcross : e.cross ⟨p, q⟩ = orientation e.start e.stop q - orientation e.start e.stop p :=
        eq_sub_of_add_eq' (orientation_stop e ⟨p, q⟩).symm
      rw [orientation_along, hcross]
      field_simp
      ring
    rw [innerSide_iff]
    exact (mul_eq_zero_of_left hline w).ge

/-- What a step of a cut leaves lies between its ends and on the inner side. -/
theorem of_mem_clipStep (h : r ∈ clipStep w e p q) :
    (⟨p, q⟩ : Segment ℚ).Covers r ∧ innerSide w e r = true := by
  unfold clipStep at h
  cases hp : innerSide w e p <;> cases hq : innerSide w e q <;>
    simp only [hp, hq, List.mem_singleton, List.mem_append, Option.mem_toList, List.not_mem_nil] at h
  · rcases h with h | rfl
    · exact covers_of_meetEdgeLine? (by simp [hp, hq]) h
    · exact ⟨covers_stop _, hq⟩
  · exact covers_of_meetEdgeLine? (by simp [hp, hq]) h
  · subst h
    exact ⟨covers_stop _, hq⟩

/-- A step keeps a point on the inner side. -/
theorem mem_clipStep_of_innerSide (hq : innerSide w e q = true) (p : Point ℚ) :
    q ∈ clipStep w e p q := by
  unfold clipStep
  rw [hq]
  cases innerSide w e p <;> simp

/-- What a cut leaves comes from two vertices. -/
theorem of_mem_clipEdge (h : r ∈ clipEdge w ring e) :
    ∃ p ∈ ring, ∃ q ∈ ring, r ∈ clipStep w e p q := by
  unfold clipEdge at h
  split at h
  · cases h
  · rename_i last hlast
    obtain ⟨⟨p, q⟩, hpq, hr⟩ := List.mem_flatMap.mp h
    obtain ⟨hp, hq⟩ := List.of_mem_zip hpq
    refine ⟨p, ?_, q, hq, hr⟩
    rcases List.mem_cons.mp hp with rfl | hp
    · exact List.mem_of_getLast? hlast
    · exact hp

/-- A cut keeps the vertices on its inner side. -/
theorem mem_clipEdge (hv : v ∈ ring) (hside : innerSide w e v = true) : v ∈ clipEdge w ring e := by
  unfold clipEdge
  split
  · rename_i hlast
    rw [List.getLast?_eq_none_iff.mp hlast] at hv
    cases hv
  · rename_i last hlast
    have hsnd : ((last :: ring).zip ring).map Prod.snd = ring := List.map_snd_zip (by simp)
    rw [← hsnd] at hv
    obtain ⟨⟨p, q⟩, hpq, rfl⟩ := List.mem_map.mp hv
    exact List.mem_flatMap.mpr ⟨(p, q), hpq, mem_clipStep_of_innerSide hside p⟩

/-- All cuts together keep what is kept between points, and each of them its inner side. -/
theorem of_mem_cuts (hP : KeptBetween P) (hring : ∀ p ∈ ring, P p)
    (hr : r ∈ edges.foldl (clipEdge w) ring) : P r ∧ ∀ e ∈ edges, innerSide w e r = true := by
  -- The side of each edge is one more property that the cuts to come have to keep.
  induction edges generalizing ring P with
  | nil => exact ⟨hring r hr, by simp⟩
  | cons e edges ih =>
    have hcut : ∀ p ∈ clipEdge w ring e, P p ∧ innerSide w e p = true := by
      intro p hp
      obtain ⟨u, hu, v, hv, hstep⟩ := of_mem_clipEdge hp
      obtain ⟨hcovers, hside⟩ := of_mem_clipStep hstep
      exact ⟨hP ⟨u, v⟩ (hring u hu) (hring v hv) p hcovers, hside⟩
    obtain ⟨⟨hPr, hside⟩, hrest⟩ := ih (hP.and (keptBetween_innerSide w e)) hcut hr
    exact ⟨hPr, List.forall_mem_cons.mpr ⟨hside, hrest⟩⟩

/-- All cuts keep the vertices on all inner sides. -/
theorem mem_cuts (hv : v ∈ ring) (hside : ∀ e ∈ edges, innerSide w e v = true) :
    v ∈ edges.foldl (clipEdge w) ring := by
  induction edges generalizing ring with
  | nil => exact hv
  | cons e edges ih =>
    obtain ⟨he, hrest⟩ := List.forall_mem_cons.mp hside
    exact ih (mem_clipEdge hv he) hrest

end Cuts

section Repeats

theorem mem_dropRepeats_go (kept : Point ℚ) (ring : List (Point ℚ)) :
    v ∈ kept :: dropRepeats.go kept ring ↔ v ∈ kept :: ring := by
  induction ring generalizing kept with
  | nil => rfl
  | cons q ring ih =>
    rw [dropRepeats.go]
    split
    · rename_i hq
      rw [ih, eq_of_beq hq]
      simp
    · rw [List.mem_cons, ih, ← List.mem_cons]

/-- Dropping repeats loses no point. -/
theorem mem_dropRepeats : v ∈ dropRepeats ring ↔ v ∈ ring := by
  cases ring with
  | nil => rfl
  | cons p ring => exact mem_dropRepeats_go p ring

/-- A list that ends with its first point loses nothing when the last one is dropped. -/
theorem mem_dropLast_of_ends (hlen : 2 ≤ ring.length) (hends : ring.head? = ring.getLast?) :
    v ∈ ring.dropLast ↔ v ∈ ring := by
  cases ring with
  | nil => contradiction
  | cons first rest =>
    cases rest with
    | nil => contradiction
    | cons second rest =>
      refine ⟨fun hv => List.dropLast_subset _ hv, fun hv => ?_⟩
      have hne : first :: second :: rest ≠ [] := List.cons_ne_nil _ _
      rw [List.head?_cons, List.getLast?_eq_some_getLast hne, Option.some.injEq] at hends
      rw [← List.dropLast_append_getLast hne, List.mem_append, List.mem_singleton, ← hends] at hv
      rcases hv with hv | rfl
      · exact hv
      · rw [List.dropLast_cons_cons]
        exact List.mem_cons_self

/-- Opening a ring loses no point. -/
theorem mem_openRing : v ∈ openRing ring ↔ v ∈ ring := by
  cases ring with
  | nil => rfl
  | cons first rest =>
    cases rest with
    | nil => rfl
    | cons second rest =>
      simp only [openRing]
      split
      · rename_i hends
        refine mem_dropLast_of_ends (by simp) ?_
        rw [List.getLast?_eq_some_getLast (List.cons_ne_nil _ _), Option.getD_some] at hends
        rw [List.getLast?_eq_some_getLast (List.cons_ne_nil _ _), eq_of_beq hends, List.head?_cons]
      · rfl

end Repeats

/-- A region is returned for convex clips alone, and has the points that the cuts leave. -/
theorem exists_cuts_of_clipToConvex? {subject clip : Polygon ℚ} {out : List (Point ℚ)}
    (h : clipToConvex? subject clip = some out) :
    isConvex clip = true ∧ ∀ p, p ∈ out ↔
      p ∈ clip.edges.foldl (clipEdge (sign (signedArea clip))) subject.ring.dropLast := by
  unfold clipToConvex? at h
  split at h
  · rename_i hconvex
    obtain rfl := Option.some.inj h
    exact ⟨hconvex, fun p => mem_openRing.trans mem_dropRepeats⟩
  · contradiction

/-- What clipping leaves of a polygon through points. All of it lies on the inner side of every edge
of the clip polygon, or on the line of the edge, and in the box around the subject. It has every
vertex of the subject that lies on the inner side of all edges. -/
theorem clipToConvex?_sound {points : List (Point ℚ)} {subject clip : Polygon ℚ}
    {out : List (Point ℚ)} (hsubject : Polygon.ofPoints? points = some subject)
    (hout : clipToConvex? subject clip = some out) :
    (∀ p ∈ out, (∀ e ∈ clip.edges, 0 ≤ inward clip e p) ∧ subject.bounds.Holds p) ∧
      ∀ v ∈ subject.ring, (∀ e ∈ clip.edges, 0 ≤ inward clip e v) → v ∈ out := by
  obtain ⟨-, hcuts⟩ := exists_cuts_of_clipToConvex? hout
  have hopen {v : Point ℚ} : v ∈ subject.ring.dropLast ↔ v ∈ subject.ring := by
    have := three_le_length_of_ofPoints? hsubject
    exact mem_dropLast_of_ends (by omega) (Polygon.closed_of_ofPoints? hsubject)
  constructor
  · intro p hp
    obtain ⟨hbox, hsides⟩ := of_mem_cuts (keptBetween_holds subject.bounds)
      (fun v hv => Polygon.holds_bounds (hopen.mp hv)) ((hcuts p).mp hp)
    exact ⟨fun e he => innerSide_iff.mp (hsides e he), hbox⟩
  · intro v hv hsides
    exact (hcuts v).mpr (mem_cuts (hopen.mpr hv) fun e he => innerSide_iff.mpr (hsides e he))

/-- A triangle that leaves out one corner of the unit square. -/
def slantedClip : Polygon ℚ := ⟨[⟨-1, -1⟩, ⟨5 / 2, -1⟩, ⟨-1, 5 / 2⟩, ⟨-1, -1⟩]⟩

/-- The square keeps three vertices and gets two new ones in place of the fourth. -/
theorem clipToConvex?_sound_slantedClip :
    ∃ out, clipToConvex? Polygon.unitSquare slantedClip = some out ∧
      out = [⟨0, 0⟩, ⟨1, 0⟩, ⟨1, 1 / 2⟩, ⟨1 / 2, 1⟩, ⟨0, 1⟩] ∧
      (∀ p ∈ out, (∀ e ∈ slantedClip.edges, 0 ≤ inward slantedClip e p) ∧
        (Polygon.unitSquare : Polygon ℚ).bounds.Holds p) ∧
      (⟨1, 0⟩ : Point ℚ) ∈ out := by
  have hinner : (⟨1, 0⟩ : Point ℚ) ∈ (Polygon.unitSquare : Polygon ℚ).ring ∧
      ∀ e ∈ slantedClip.edges, 0 ≤ inward slantedClip e ⟨1, 0⟩ := by decide +kernel
  have hsquare : Polygon.ofPoints? [⟨0, 0⟩, ⟨1, 0⟩, ⟨1, 1⟩, ⟨0, 1⟩] =
      some (Polygon.unitSquare : Polygon ℚ) := by decide +kernel
  have hout : clipToConvex? Polygon.unitSquare slantedClip =
      some [⟨0, 0⟩, ⟨1, 0⟩, ⟨1, 1 / 2⟩, ⟨1 / 2, 1⟩, ⟨0, 1⟩] := by decide +kernel
  obtain ⟨hsound, hkept⟩ := clipToConvex?_sound hsquare hout
  exact ⟨_, hout, rfl, hsound, hkept _ hinner.1 hinner.2⟩

end SpatialSql.Planar
