import SpatialSql.Coordinate
import SpatialSql.Proofs.Decimal.Value
import Mathlib.Order.WithBot

/-!
# The order of doubles

Doubles that are defined, the infinities among them, are ordered as their places on the line of
rational numbers with an end on either side, and they compare equal exactly if they have the same
place. The smaller and the larger of two doubles are the first one unless the second is strictly
ahead of it, so of several doubles at the extreme place the first is kept.
-/

namespace SpatialSql.Decimal

open Float.Model UnpackedFloat

/-- The place of an unpacked form between the two infinities. NaN has none and is put at the lower
end, where no statement looks for it. -/
def unpackedPlace (u : UnpackedFloat) : WithBot (WithTop ℚ) :=
  match u, unpackedValue? u with
  | _, some q => ((q : WithTop ℚ) : WithBot (WithTop ℚ))
  | .infinity .positive, none => ⊤
  | _, none => ⊥

/-- The place of a double between the two infinities. -/
def place (x : Float) : WithBot (WithTop ℚ) := unpackedPlace (unpacked x)

/-- A number has its value as its place. -/
theorem unpackedPlace_of_value {u : UnpackedFloat} {q : ℚ} (h : unpackedValue? u = some q) :
    unpackedPlace u = ((q : WithTop ℚ) : WithBot (WithTop ℚ)) := by
  unfold unpackedPlace
  rw [h]

theorem unpackedPlace_negative : unpackedPlace (.infinity .negative) = ⊥ := rfl

theorem unpackedPlace_positive : unpackedPlace (.infinity .positive) = ⊤ := rfl

section Infinities

variable {u : UnpackedFloat} {q : ℚ} (hu : unpackedValue? u = some q)

include hu

/-- A number lies above negative infinity. -/
theorem bot_lt_unpackedPlace : ⊥ < unpackedPlace u := by
  rw [unpackedPlace_of_value hu]
  exact WithBot.bot_lt_coe _

/-- A number lies below positive infinity. -/
theorem unpackedPlace_lt_top : unpackedPlace u < ⊤ := by
  rw [unpackedPlace_of_value hu]
  exact WithBot.coe_lt_coe.mpr (WithTop.coe_lt_top q)

/-- A number lies between the infinities, from whichever side it is compared. -/
theorem compare_infinity (s : Sign) :
    (UnpackedFloat.infinity s).compare u =
      some (compare (unpackedPlace (.infinity s)) (unpackedPlace u)) ∧
    u.compare (.infinity s) =
      some (compare (unpackedPlace u) (unpackedPlace (.infinity s))) := by
  cases s with
  | negative =>
    have hplace := bot_lt_unpackedPlace hu
    rw [unpackedPlace_negative, compare_lt_iff_lt.mpr hplace, compare_gt_iff_gt.mpr hplace]
    cases u with
    | infinity t | notANumber => cases hu
    | zero t => exact ⟨rfl, rfl⟩
    | finite t m e hm => cases t <;> exact ⟨rfl, rfl⟩
  | positive =>
    have hplace := unpackedPlace_lt_top hu
    rw [unpackedPlace_positive, compare_lt_iff_lt.mpr hplace, compare_gt_iff_gt.mpr hplace]
    cases u with
    | infinity t | notANumber => cases hu
    | zero t => exact ⟨rfl, rfl⟩
    | finite t m e hm => cases t <;> exact ⟨rfl, rfl⟩

end Infinities

/-- The infinities are compared as the ends of the line. -/
theorem compare_infinities (s t : Sign) :
    (UnpackedFloat.infinity s).compare (.infinity t) =
      some (compare (unpackedPlace (.infinity s)) (unpackedPlace (.infinity t))) := by
  have hends : (⊥ : WithBot (WithTop ℚ)) < ⊤ := bot_lt_top
  cases s with
  | negative =>
    cases t with
    | negative =>
      rw [compare_eq_iff_eq.mpr rfl]
      rfl
    | positive =>
      rw [unpackedPlace_negative, unpackedPlace_positive, compare_lt_iff_lt.mpr hends]
      rfl
  | positive =>
    cases t with
    | negative =>
      rw [unpackedPlace_negative, unpackedPlace_positive, compare_gt_iff_gt.mpr hends]
      rfl
    | positive =>
      rw [compare_eq_iff_eq.mpr rfl]
      rfl

/-- Numbers keep their order between the ends. -/
theorem compare_coe (p q : ℚ) :
    compare ((p : WithTop ℚ) : WithBot (WithTop ℚ)) ((q : WithTop ℚ) : WithBot (WithTop ℚ)) =
      compare p q := by
  rcases lt_trichotomy p q with h | rfl | h
  · rw [compare_lt_iff_lt.mpr h]
    exact compare_lt_iff_lt.mpr (WithBot.coe_lt_coe.mpr (WithTop.coe_lt_coe.mpr h))
  · rw [compare_eq_iff_eq.mpr rfl, compare_eq_iff_eq.mpr rfl]
  · rw [compare_gt_iff_gt.mpr h]
    exact compare_gt_iff_gt.mpr (WithBot.coe_lt_coe.mpr (WithTop.coe_lt_coe.mpr h))

/-- A double that is not NaN is a number or one of the infinities. -/
theorem value_or_infinity {x : Float} (h : x.isNaN = false) :
    (∃ q, value? x = some q) ∨ ∃ s, unpacked x = .infinity s := by
  change (unpacked x).isNaN = false at h
  rw [value?]
  cases hu : unpacked x with
  | notANumber =>
    rw [hu] at h
    contradiction
  | infinity s => exact .inr ⟨s, rfl⟩
  | zero s => exact .inl ⟨_, rfl⟩
  | finite s m e hm => cases s <;> exact .inl ⟨_, rfl⟩

section Doubles

variable {x y : Float} (hx : x.isNaN = false) (hy : y.isNaN = false)

include hx hy

/-- Defined doubles are compared as their places. -/
theorem compare_eq_compare_place :
    (unpacked x).compare (unpacked y) = some (compare (place x) (place y)) := by
  unfold place
  rcases value_or_infinity hx with ⟨p, hp⟩ | ⟨s, hs⟩
  · rcases value_or_infinity hy with ⟨q, hq⟩ | ⟨t, ht⟩
    · rw [unpackedPlace_of_value hp, unpackedPlace_of_value hq, compare_coe]
      exact compare_eq_compare_value hp hq
    · rw [ht]
      exact (compare_infinity hp t).2
  · rcases value_or_infinity hy with ⟨q, hq⟩ | ⟨t, ht⟩
    · rw [hs]
      exact (compare_infinity hq s).1
    · rw [hs, ht]
      exact compare_infinities s t

/-- A double is smaller if its place is. -/
theorem lt_iff_place_lt : x < y ↔ place x < place y := by
  rw [lt_iff_compare, compare_eq_compare_place hx hy, Option.some.injEq, compare_lt_iff_lt]

/-- A double is at most another if its place is. -/
theorem le_iff_place_le : x ≤ y ↔ place x ≤ place y := by
  rw [le_iff_compare, compare_eq_compare_place hx hy, Option.any_some, ← compare_le_iff_le,
    Ordering.isLE_iff_ne_gt]

/-- Doubles compare equal exactly at the same place. -/
theorem beq_iff_place_eq : (x == y) = true ↔ place x = place y := by
  rw [beq_iff_compare, compare_eq_compare_place hx hy, Option.some.injEq, compare_eq_iff_eq]

/-- The second of two doubles is taken only if it is smaller. -/
theorem lesser_eq : lesser x y = if place y < place x then y else x := by
  rw [lesser, hx, hy]
  simp only [lt_iff_place_lt hy hx]
  rfl

/-- The second of two doubles is taken only if it is larger. -/
theorem larger_eq : larger x y = if place x < place y then y else x := by
  rw [larger, hx, hy]
  simp only [lt_iff_place_lt hx hy]
  rfl

end Doubles

end SpatialSql.Decimal
