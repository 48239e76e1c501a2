import SpatialSql.Emulation.Basic
import SpatialSql.Proofs.Meaning.Folding
import SpatialSql.Proofs.Planar.Segment
import Mathlib.Data.Rat.Sqrt

/-!
# The portable formulas for segments

The formulas that replace tests and crossings of segments are evaluated in a row where the
coordinates of the ends are known. What they come to is first written with the operations
of the number type, whatever these are. With exact coordinates it is the outcome of the
planar functions that decide literal segments.
-/

namespace SpatialSql

namespace Environment

open SpatialSql.Expr SpatialSql.Emulation

variable {α : Type} [Numeral α] {env : Environment α} {a b c : Expr α} {x y : α} {p q : Bool}
  {s : String}

section Known

/-- A number that is known is the value of its expression. -/
theorem eval_of_number (h : env.number a = some x) : env.eval a = some (.number x) := by
  obtain ⟨v, hv, hx⟩ := Option.bind_eq_some_iff.mp h
  cases v <;> cases hx
  exact hv

/-- A truth value is the whole value of an expression. -/
theorem eval_of_truth (h : env.truth a = some p) : env.eval a = some (.bool p) := by
  obtain ⟨v, hv, hp⟩ := Option.bind_eq_some_iff.mp h
  cases v <;> cases hp
  exact hv

/-- A text is the whole value of an expression. -/
theorem eval_of_text (h : env.text a = some s) : env.eval a = some (.text s) := by
  obtain ⟨v, hv, hs⟩ := Option.bind_eq_some_iff.mp h
  cases v <;> cases hs
  exact hv

theorem number_of_eval (h : env.eval a = some (.number x)) : env.number a = some x := by
  rw [number, h]
  rfl

theorem truth_of_eval (h : env.eval a = some (.bool p)) : env.truth a = some p := by
  rw [truth, h]
  rfl

theorem text_of_eval (h : env.eval a = some (.text s)) : env.text a = some s := by
  rw [text, h]
  rfl

theorem number_plus (ha : env.number a = some x) (hb : env.number b = some y) :
    env.number (a.plus b) = some (x + y) :=
  number_of_eval (by rw [eval_plus, ha, hb]; rfl)

theorem number_minus (ha : env.number a = some x) (hb : env.number b = some y) :
    env.number (a.minus b) = some (x - y) :=
  number_of_eval (by rw [eval_minus, ha, hb]; rfl)

theorem number_times (ha : env.number a = some x) (hb : env.number b = some y) :
    env.number (a.times b) = some (x * y) :=
  number_of_eval (by rw [eval_times, ha, hb]; rfl)

theorem number_least (ha : env.number a = some x) (hb : env.number b = some y) :
    env.number (a.least b) = some (Coordinate.least x y) :=
  number_of_eval (by rw [eval_least, ha, hb]; rfl)

theorem number_greatest (ha : env.number a = some x) (hb : env.number b = some y) :
    env.number (a.greatest b) = some (Coordinate.greatest x y) :=
  number_of_eval (by rw [eval_greatest, ha, hb]; rfl)

/-- A quotient is computed where the divisor is not zero. -/
theorem number_dividedBy (ha : env.number a = some x) (hb : env.number b = some y)
    (hy : (y == Coordinate.zero) = false) : env.number (a.dividedBy b) = some (x / y) := by
  apply number_of_eval
  rw [eval_dividedBy, ha, hb, Option.bind_some, Option.bind_some, quotient, hy]
  rfl

theorem truth_isAtMost (ha : env.number a = some x) (hb : env.number b = some y) :
    env.truth (a.isAtMost b) = some (Coordinate.atMost x y) :=
  truth_of_eval (by rw [eval_isAtMost, compared, eval_of_number ha, eval_of_number hb]; rfl)

/-- Two numbers are compared as the builders compare them. -/
theorem truth_isEqual (ha : env.number a = some x) (hb : env.number b = some y) :
    env.truth (a.isEqual b) = some (x == y) :=
  truth_of_eval (by rw [eval_isEqual, compared, eval_of_number ha, eval_of_number hb]; rfl)

theorem truth_isNotEqual (ha : env.number a = some x) (hb : env.number b = some y) :
    env.truth (a.isNotEqual b) = some (!(x == y)) :=
  truth_of_eval (by rw [eval_isNotEqual, compared, eval_of_number ha, eval_of_number hb]; rfl)

/-- Two known conditions hold together or not. -/
theorem truth_and_known (ha : env.truth a = some p) (hb : env.truth b = some q) :
    env.truth (a.and b) = some (p && q) := by
  rw [truth_and, ha, hb]
  cases p <;> cases q <;> rfl

theorem text_toText (ha : env.number a = some x) : env.text a.toText = some (Numeral.text x) :=
  text_of_eval (by rw [eval_toText, ha]; rfl)

/-- The texts of two numbers make up the coordinates of a point. -/
theorem text_pairText (ha : env.number a = some x) (hb : env.number b = some y) :
    env.text (pairText a b) = some (Point.mk x y).coordinates := by
  rw [pairText, text_concatAll]
  simp only [List.map_cons, List.map_nil, text_toText ha, text_toText hb, text_text]
  simp [concatenation, Point.coordinates, String.append_assoc]

/-- The text of a point whose coordinates are known is its well-known text. -/
theorem text_pointText (ha : env.number a = some x) (hb : env.number b = some y) :
    env.text (pointText a b) = some (Point.mk x y).wkt := by
  rw [pointText, text_concatAll]
  simp only [List.map_cons, List.map_nil, text_pairText ha hb, text_text]
  simp [concatenation, Point.wkt, String.append_assoc]

end Known

section Ends

/-- In the row, the coordinates of two ends are those of a segment. -/
structure EndsAt (env : Environment α) (ends : Ends α) (s : Segment α) : Prop where
  x₁ : env.number ends.x₁ = some s.start.x
  y₁ : env.number ends.y₁ = some s.start.y
  x₂ : env.number ends.x₂ = some s.stop.x
  y₂ : env.number ends.y₂ = some s.stop.y

end Ends

end Environment

namespace Planar

open Coordinate

variable {α : Type} [Coordinate α]

/-- The ends of each segment lie on different sides of the other's line, or on it, and the boxes
overlap, as far as the number type can tell. -/
def signTest (s t : Segment α) : Bool :=
  atMost (orientation t.start t.stop s.start * orientation t.start t.stop s.stop) zero &&
    atMost (orientation s.start s.stop t.start * orientation s.start s.stop t.stop) zero &&
    (atMost (least s.start.x s.stop.x) (greatest t.start.x t.stop.x) &&
      atMost (least t.start.x t.stop.x) (greatest s.start.x s.stop.x)) &&
    (atMost (least s.start.y s.stop.y) (greatest t.start.y t.stop.y) &&
      atMost (least t.start.y t.stop.y) (greatest s.start.y s.stop.y))

/-- With exact coordinates, the test by signs and boxes and the test by sides and ends agree. -/
theorem signTest_eq_segmentsIntersect (s t : Segment ℚ) : signTest s t = segmentsIntersect s t := by
  rw [Bool.eq_iff_iff, segmentsIntersect_iff_meets, meets_iff_straddle]
  simp only [signTest, Bool.and_eq_true, atMost_exact, least_exact, greatest_exact, zero_exact,
    and_assoc, Straddle, BoxesOverlap, RangesOverlap]

end Planar

namespace Environment

open SpatialSql.Expr SpatialSql.Emulation

variable {α : Type} [Numeral α] {env : Environment α} {p q : Ends α} {s t : Segment α}

/-- The formula for an orientation computes that of the points. -/
theorem number_orientation {ax ay bx bY cx cy : Expr α} {a b c : Point α}
    (hax : env.number ax = some a.x) (hay : env.number ay = some a.y)
    (hbx : env.number bx = some b.x) (hby : env.number bY = some b.y)
    (hcx : env.number cx = some c.x) (hcy : env.number cy = some c.y) :
    env.number (orientation ax ay bx bY cx cy) = some (Planar.orientation a b c) :=
  number_minus (number_times (number_minus hbx hax) (number_minus hcy hay))
    (number_times (number_minus hby hay) (number_minus hcx hax))

/-- Two orientations straddle if their product is not positive. -/
theorem truth_straddles {a b : Expr α} {x y : α} (ha : env.number a = some x)
    (hb : env.number b = some y) :
    env.truth (straddles a b) = some (Coordinate.atMost (x * y) Coordinate.zero) :=
  truth_isAtMost (number_times ha hb) (env.number_number _)

/-- Two ranges overlap if neither lies beyond the other. -/
theorem truth_rangesOverlap {a b c d : Expr α} {w x y z : α} (ha : env.number a = some w)
    (hb : env.number b = some x) (hc : env.number c = some y) (hd : env.number d = some z) :
    env.truth (rangesOverlap a b c d) =
      some (Coordinate.atMost (Coordinate.least w x) (Coordinate.greatest y z) &&
        Coordinate.atMost (Coordinate.least y z) (Coordinate.greatest w x)) :=
  truth_and_known (truth_isAtMost (number_least ha hb) (number_greatest hc hd))
    (truth_isAtMost (number_least hc hd) (number_greatest ha hb))

/-- The formula for segments that share a point is the test by signs and boxes. -/
theorem truth_segmentsIntersect (hp : env.EndsAt p s) (hq : env.EndsAt q t) :
    env.truth (segmentsIntersect p q) = some (Planar.signTest s t) := by
  have h₁ := number_orientation hq.x₁ hq.y₁ hq.x₂ hq.y₂ hp.x₁ hp.y₁
  have h₂ := number_orientation hq.x₁ hq.y₁ hq.x₂ hq.y₂ hp.x₂ hp.y₂
  have h₃ := number_orientation hp.x₁ hp.y₁ hp.x₂ hp.y₂ hq.x₁ hq.y₁
  have h₄ := number_orientation hp.x₁ hp.y₁ hp.x₂ hp.y₂ hq.x₂ hq.y₂
  exact truth_and_known
    (truth_and_known (truth_and_known (truth_straddles h₁ h₂) (truth_straddles h₃ h₄))
      (truth_rangesOverlap hp.x₁ hp.x₂ hq.x₁ hq.x₂))
    (truth_rangesOverlap hp.y₁ hp.y₂ hq.y₁ hq.y₂)

/-- The formula for the point where segments meet gives the text of that point, and a null where there
is none, provided that the two tests agree on them. -/
theorem eval_crossingText (hp : env.EndsAt p s) (hq : env.EndsAt q t)
    (htest : Planar.signTest s t = Planar.segmentsIntersect s t) :
    env.eval (crossingText p q) = (Planar.segmentIntersection? s t).map fun c => .text c.wkt := by
  have hrx := number_minus hp.x₂ hp.x₁
  have hry := number_minus hp.y₂ hp.y₁
  have hsx := number_minus hq.x₂ hq.x₁
  have hsy := number_minus hq.y₂ hq.y₁
  have hcross := number_minus (number_times hrx hsy) (number_times hry hsx)
  have hcrosses := truth_and_known (truth_segmentsIntersect hp hq)
    (truth_isNotEqual hcross (env.number_number Coordinate.zero))
  have hdx := number_minus hq.x₁ hp.x₁
  have hdy := number_minus hq.y₁ hp.y₁
  have hnum := number_minus (number_times hdx hsy) (number_times hdy hsx)
  rw [crossingText, eval_caseWhen, hcrosses, htest, Planar.segmentIntersection?]
  cases hmeets : Planar.segmentsIntersect s t with
  | false => simp
  | true =>
    cases hzero : (s.stop.x - s.start.x) * (t.stop.y - t.start.y) -
        (s.stop.y - s.start.y) * (t.stop.x - t.start.x) == (Coordinate.zero : α) with
    | true => simp
    | false =>
      have hu := number_dividedBy hnum hcross hzero
      simpa using eval_of_text (text_pointText (number_plus hp.x₁ (number_times hu hrx))
        (number_plus hp.y₁ (number_times hu hry)))

end Environment

namespace Emulation

open SpatialSql.Expr

variable {α : Type}

/-- A known point is a literal. -/
theorem eq_point_of_point? {a : Expr α} {p : Point α} (h : a.point? = some p) : a = .point p := by
  unfold point? at h
  split at h
  · cases h; rfl
  · contradiction

/-- A point gives its coordinates back, as a literal and as a construction. -/
theorem coordinate_pointAtCoordinates (x y : Expr α) :
    coordinate .x (pointAtCoordinates x y) = x ∧ coordinate .y (pointAtCoordinates x y) = y := by
  unfold pointAtCoordinates
  split
  · next a b ha hb =>
    rw [eq_number_of_number? ha, eq_number_of_number? hb]
    exact ⟨rfl, rfl⟩
  · exact ⟨rfl, rfl⟩

/-- A segment gives the coordinates of its ends back, as a literal and as a construction. -/
theorem segmentEnds_segmentBetween [Numeral α] (p q : Expr α) : segmentEnds (segmentBetween p q) =
    ⟨coordinate .x p, coordinate .y p, coordinate .x q, coordinate .y q⟩ := by
  unfold segmentBetween
  split
  · next a b ha hb =>
    rw [eq_point_of_point? ha, eq_point_of_point? hb]
    rfl
  · rfl

/-- The ends of a segment that was made of coordinates are these. -/
theorem segmentEnds_segmentAtCoordinates [Numeral α] (x₁ y₁ x₂ y₂ : Expr α) :
    segmentEnds (segmentAtCoordinates x₁ y₁ x₂ y₂) = ⟨x₁, y₁, x₂, y₂⟩ := by
  rw [segmentAtCoordinates, segmentEnds_segmentBetween]
  obtain ⟨hx₁, hy₁⟩ := coordinate_pointAtCoordinates x₁ y₁
  obtain ⟨hx₂, hy₂⟩ := coordinate_pointAtCoordinates x₂ y₂
  rw [hx₁, hy₁, hx₂, hy₂]

/-- Segments that are not both literals always have a formula. -/
theorem emulate?_segments [Numeral α] {a b : Expr α} (hab : a.segment? = none ∨ b.segment? = none) :
    emulate? .segment .intersects [a, b] =
        some (.value (segmentsIntersect (segmentEnds a) (segmentEnds b))) ∧
      emulate? .segment .intersectionPoint [a, b] =
        some (.wkt .point (crossingText (segmentEnds a) (segmentEnds b))) := by
  constructor
  · change emulateSegment? .intersects a b = _
    rcases hab with h | h
    · simp [emulateSegment?, h]
    · cases ha : a.segment? <;> simp [emulateSegment?, h, ha]
  · change emulateSegment? .intersectionPoint a b = _
    rcases hab with h | h
    · simp [emulateSegment?, h]
    · cases ha : a.segment? <;> simp [emulateSegment?, h, ha]

end Emulation

namespace Environment

open SpatialSql.Expr SpatialSql.Emulation

/-- With exact coordinates, the formulas for two segments that are not both literals come to what the
planar functions decide: whether the segments share a point, and the text of the single point where
they meet, null when there is none. -/
theorem segment_formulas_agree [Spelling ℚ] (env : Environment ℚ) (a b : Expr ℚ) (s t : Segment ℚ)
    (ha : env.EndsAt (segmentEnds a) s) (hb : env.EndsAt (segmentEnds b) t)
    (hab : a.segment? = none ∨ b.segment? = none) :
    (∃ e, emulate? .segment .intersects [a, b] = some (.value e) ∧
      env.eval e = some (.bool (Planar.segmentsIntersect s t))) ∧
    ∃ e, emulate? .segment .intersectionPoint [a, b] = some (.wkt .point e) ∧
      env.eval e = (Planar.segmentIntersection? s t).map fun p => .text p.wkt := by
  have htest := Planar.signTest_eq_segmentsIntersect s t
  obtain ⟨hmeet, hcross⟩ := emulate?_segments hab
  refine ⟨⟨_, hmeet, ?_⟩, _, hcross, ?_⟩
  · exact eval_of_truth ((truth_segmentsIntersect ha hb).trans (congrArg some htest))
  · exact eval_crossingText ha hb htest

/-- Exact numbers are written as a numerator and, unless it is one, a denominator; whole numbers are
read, and perfect squares have their root. -/
instance fractions : Spelling ℚ where
  text x := if x.den = 1 then toString x.num else toString x.num ++ "/" ++ toString x.den
  read? text := (Decimal.integer? text.toList).map fun n => n
  natural? x := if x.den = 1 ∧ 0 ≤ x.num then some x.num.toNat else none
  sqrt := Rat.sqrt

/-- A row whose columns hold zero or two. -/
def zerosAndTwos : Environment ℚ where
  column c := some (.number (if c.name = "two" then 2 else 0))
  spatial _ _ _ := none
  aggregate _ _ := none
  quotientByZero _ := none
  rootBelowZero _ := none
  numberOfWords _ := none

/-- A segment with the given columns as the coordinates of its ends. -/
def segmentOfColumns (x₁ y₁ x₂ y₂ : String) : Expr ℚ :=
  let column (name : String) : Expr ℚ := .column ⟨⟨"t", none⟩, name, .number⟩
  segmentAtCoordinates (column x₁) (column y₁) (column x₂) (column y₂)

/-- The diagonals of a square meet in its centre. -/
theorem segment_formulas_agree_diagonals :
    zerosAndTwos.EndsAt (segmentEnds (segmentOfColumns "zero" "zero" "two" "two")) ⟨⟨0, 0⟩, ⟨2, 2⟩⟩ ∧
    zerosAndTwos.EndsAt (segmentEnds (segmentOfColumns "zero" "two" "two" "zero")) ⟨⟨0, 2⟩, ⟨2, 0⟩⟩ ∧
    (∃ e, emulate? .segment .intersects [segmentOfColumns "zero" "zero" "two" "two",
        segmentOfColumns "zero" "two" "two" "zero"] = some (.value e) ∧
      zerosAndTwos.eval e = some (.bool true)) ∧
    ∃ e, emulate? .segment .intersectionPoint [segmentOfColumns "zero" "zero" "two" "two",
        segmentOfColumns "zero" "two" "two" "zero"] = some (.wkt .point e) ∧
      zerosAndTwos.eval e = some (.text "POINT (1 1)") := by
  have hzero : zerosAndTwos.number (.column ⟨⟨"t", none⟩, "zero", .number⟩) = some 0 := by
    rw [number, eval]
    rfl
  have htwo : zerosAndTwos.number (.column ⟨⟨"t", none⟩, "two", .number⟩) = some 2 := by
    rw [number, eval]
    rfl
  have hrising : zerosAndTwos.EndsAt (segmentEnds (segmentOfColumns "zero" "zero" "two" "two"))
      ⟨⟨0, 0⟩, ⟨2, 2⟩⟩ := by
    rw [segmentOfColumns, segmentEnds_segmentAtCoordinates]
    exact ⟨hzero, hzero, htwo, htwo⟩
  have hfalling : zerosAndTwos.EndsAt (segmentEnds (segmentOfColumns "zero" "two" "two" "zero"))
      ⟨⟨0, 2⟩, ⟨2, 0⟩⟩ := by
    rw [segmentOfColumns, segmentEnds_segmentAtCoordinates]
    exact ⟨hzero, htwo, htwo, hzero⟩
  have h := segment_formulas_agree zerosAndTwos _ _ _ _ hrising hfalling (.inl rfl)
  have hmeet : Planar.segmentsIntersect (⟨⟨0, 0⟩, ⟨2, 2⟩⟩ : Segment ℚ) ⟨⟨0, 2⟩, ⟨2, 0⟩⟩ = true := by
    decide +kernel
  have hpoint : Planar.segmentIntersection? (⟨⟨0, 0⟩, ⟨2, 2⟩⟩ : Segment ℚ) ⟨⟨0, 2⟩, ⟨2, 0⟩⟩ =
      some ⟨1, 1⟩ := by
    decide +kernel
  rw [hmeet, hpoint] at h
  exact ⟨hrising, hfalling, h⟩

end Environment

end SpatialSql
