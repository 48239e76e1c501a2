import SpatialSql.Proofs.Planar.Segment

/-!
# Boxes around points

The box around a list of points is extended by one point after the other. It never gives up a
point it has taken in, so it holds them all, and with two points everything between them.
-/

namespace SpatialSql

namespace Bounds

variable {b : Bounds ℚ} {p q : Point ℚ} {points : List (Point ℚ)} {s : Segment ℚ}

/-- The point lies in the box, sides included. -/
def Holds (b : Bounds ℚ) (p : Point ℚ) : Prop :=
  (b.minX ≤ p.x ∧ p.x ≤ b.maxX) ∧ b.minY ≤ p.y ∧ p.y ≤ b.maxY

theorem holds_point (p : Point ℚ) : (point p).Holds p :=
  ⟨⟨le_rfl, le_rfl⟩, le_rfl, le_rfl⟩

/-- A box that is extended to a point holds it. -/
theorem holds_extend (b : Bounds ℚ) (p : Point ℚ) : (b.extend p).Holds p :=
  ⟨⟨min_le_right _ _, le_max_right _ _⟩, min_le_right _ _, le_max_right _ _⟩

/-- And still holds what it held. -/
theorem Holds.extend (h : b.Holds q) (p : Point ℚ) : (b.extend p).Holds q := by
  obtain ⟨⟨hx₁, hx₂⟩, hy₁, hy₂⟩ := h
  exact ⟨⟨(min_le_left _ _).trans hx₁, hx₂.trans (le_max_left _ _)⟩,
    (min_le_left _ _).trans hy₁, hy₂.trans (le_max_left _ _)⟩

/-- A growing box keeps what it holds. -/
theorem Holds.foldl (h : b.Holds q) (points : List (Point ℚ)) :
    (points.foldl Bounds.extend b).Holds q := by
  induction points generalizing b with
  | nil => exact h
  | cons p points ih => exact ih (h.extend p)

/-- A box that grows over points holds each of them. -/
theorem holds_foldl (b : Bounds ℚ) (hp : p ∈ points) : (points.foldl extend b).Holds p := by
  induction points generalizing b with
  | nil => cases hp
  | cons q points ih =>
    rcases List.mem_cons.mp hp with rfl | hp
    · exact (holds_extend b p).foldl points
    · exact ih _ hp

/-- The box around points holds each of them. -/
theorem holds_of_mem (h : of? points = some b) (hp : p ∈ points) : b.Holds p := by
  cases points with
  | nil => cases hp
  | cons q points =>
    obtain rfl := Option.some.inj h
    rcases List.mem_cons.mp hp with rfl | hp
    · exact (holds_point p).foldl points
    · exact holds_foldl _ hp

/-- A box that holds the ends of a segment holds all of it. -/
theorem Holds.covers (hstart : b.Holds s.start) (hstop : b.Holds s.stop) (hp : s.Covers p) :
    b.Holds p := by
  obtain ⟨u, hu₀, hu₁, rfl⟩ := hp
  have hx := between_of_ratio s.start.x s.stop.x hu₀ hu₁
  have hy := between_of_ratio s.start.y s.stop.y hu₀ hu₁
  exact ⟨⟨(le_min hstart.1.1 hstop.1.1).trans hx.1, hx.2.trans (max_le hstart.1.2 hstop.1.2)⟩,
    (le_min hstart.2.1 hstop.2.1).trans hy.1, hy.2.trans (max_le hstart.2.2 hstop.2.2)⟩

end Bounds

/-- The box around a polygon holds its vertices. -/
theorem Polygon.holds_bounds {a : Polygon ℚ} {p : Point ℚ} (hp : p ∈ a.ring) : a.bounds.Holds p := by
  cases hbox : Bounds.of? a.ring with
  | none =>
    obtain ⟨ring⟩ := a
    cases ring with
    | nil => cases hp
    | cons q ring => cases hbox
  | some b =>
    rw [Polygon.bounds, hbox]
    exact Bounds.holds_of_mem hbox hp

end SpatialSql
