import SpatialSql.Proofs.Decimal.Equality
import Mathlib.Algebra.Order.Field.Power
import Mathlib.Algebra.Order.Field.Rat
import Mathlib.Order.Compare
import Mathlib.Tactic.Linarith
import Mathlib.Tactic.Ring

/-!
# The numbers that doubles stand for

A finite double is a rational number, `value?`. Doubles are compared as these numbers are, and
the natural number of a double is its value when that is natural: a fraction, a negative number, an
infinity and NaN have none.
-/

namespace SpatialSql.Decimal

open Float.Model UnpackedFloat

/-- The number an unpacked form stands for; infinities and NaN stand for none. -/
def unpackedValue? : UnpackedFloat → Option ℚ
  | .zero _ => some 0
  | .finite .positive m e _ => some (m * 2 ^ e)
  | .finite .negative m e _ => some (-(m * 2 ^ e))
  | .infinity _ | .notANumber => none

/-- The number a double stands for; infinities and NaN stand for none. -/
def value? (x : Float) : Option ℚ := unpackedValue? (unpacked x)

theorem magnitude_pos {m : ℕ} (hm : 0 < m) (e : ℤ) : (0 : ℚ) < m * 2 ^ e :=
  mul_pos (Nat.cast_pos.mpr hm) (zpow_pos two_pos e)

/-- A zero stands for zero, whatever its exponent. -/
theorem Dyadic.toNat?_of_mantissa_eq_zero {d : Dyadic} (hd : d.mantissa = 0) : d.toNat? = some 0 := by
  rw [toNat?, if_neg fun h => h.2 hd, hd]
  simp

/-- The value is natural when the parts give a natural number. -/
theorem Dyadic.toNat?_eq_some_iff {d : Dyadic} (hd : d.negative = false) {n : ℕ} :
    d.toNat? = some n ↔ (d.mantissa * 2 ^ d.exponent : ℚ) = n := by
  have hsign : ¬ (d.negative = true ∧ d.mantissa ≠ 0) := by simp [hd]
  rw [toNat?, if_neg hsign]
  by_cases he : 0 ≤ d.exponent
  · obtain ⟨k, hk⟩ := Int.eq_ofNat_of_zero_le he
    rw [if_pos he, hk, Option.some.injEq, Int.toNat_natCast, zpow_natCast]
    change d.mantissa * 2 ^ k = n ↔ _
    norm_cast
  · obtain ⟨k, hk⟩ := Int.eq_ofNat_of_zero_le (Int.neg_nonneg_of_nonpos (Int.le_of_not_le he))
    have hexp : d.exponent = -k := by omega
    have hscale : (0 : ℚ) < 2 ^ k := pow_pos two_pos k
    rw [if_neg he, hexp, Int.neg_neg, Int.toNat_natCast, zpow_neg, zpow_natCast, ← div_eq_mul_inv,
      div_eq_iff hscale.ne']
    change (if d.mantissa % 2 ^ k = 0 then some (d.mantissa / 2 ^ k) else none) = some n ↔ _
    have hcast : (d.mantissa : ℚ) = n * 2 ^ k ↔ d.mantissa = n * 2 ^ k := by norm_cast
    rw [hcast]
    constructor
    · intro h
      split at h
      · next hdvd =>
        rw [← Option.some.inj h, Nat.div_mul_cancel (Nat.dvd_of_mod_eq_zero hdvd)]
      · contradiction
    · intro h
      rw [h, Nat.mul_mod_left, if_pos rfl, Nat.mul_div_cancel _ (Nat.two_pow_pos k)]

/-- The natural number of a double is its value. -/
theorem natural?_eq_some_iff {x : Float} {n : ℕ} : natural? x = some n ↔ value? x = some (n : ℚ) := by
  rw [natural?, Reading.of_eq, value?]
  cases unpacked x with
  | infinity s | notANumber =>
    exact iff_of_false (Option.some_ne_none n).symm (Option.some_ne_none _).symm
  | zero s =>
    change Dyadic.toNat? _ = some n ↔ some (0 : ℚ) = some ↑n
    rw [Dyadic.toNat?_of_mantissa_eq_zero rfl, Option.some.injEq, Option.some.injEq, eq_comm,
      eq_comm (b := (n : ℚ)), Nat.cast_eq_zero]
  | finite s m e hm =>
    have hpos := magnitude_pos hm e
    cases s with
    | negative =>
      have hne : -((m : ℚ) * 2 ^ e) ≠ n := by
        have hn : (0 : ℚ) ≤ n := Nat.cast_nonneg n
        linarith
      change Dyadic.toNat? _ = some n ↔ some _ = some (n : ℚ)
      rw [Dyadic.toNat?, if_pos ⟨rfl, hm.ne'⟩, Option.some.injEq]
      exact iff_of_false (Option.some_ne_none n).symm hne
    | positive =>
      change Dyadic.toNat? _ = some n ↔ some ((m : ℚ) * 2 ^ e) = some ↑n
      rw [Option.some.injEq]
      exact Dyadic.toNat?_eq_some_iff rfl

/-- The mantissa takes all its bits unless the exponent is the least one. -/
structure Canonical (m : ℕ) (e : ℤ) : Prop where
  lt : m < 2 ^ 53
  ge : -1074 ≤ e
  normal : -1074 < e → 2 ^ 52 ≤ m

/-- Bits are read as canonical forms. -/
theorem canonical_of_ofBits {b : ℕ} {d : Dyadic} (h : Reading.ofBits b = .finite d) :
    Canonical d.mantissa d.exponent := by
  have hfraction : b % 2 ^ 52 < 2 ^ 52 := Nat.mod_lt _ (Nat.two_pow_pos 52)
  unfold Reading.ofBits at h
  dsimp only at h
  split at h
  · split at h <;> contradiction
  · split at h
    · cases h
      exact ⟨Nat.lt_trans hfraction (by decide), le_rfl, fun h => absurd h (lt_irrefl _)⟩
    · next hbiased =>
      cases h
      refine ⟨?_, ?_, fun _ => Nat.le_add_right _ _⟩
      · change 2 ^ 52 + b % 2 ^ 52 < 2 ^ 53
        omega
      · dsimp only
        omega

/-- A finite double has a canonical form. -/
theorem canonical_of_finite {x : Float} {s : Sign} {m : ℕ} {e : ℤ} {hm : 0 < m}
    (h : unpacked x = .finite s m e hm) : Canonical m e := by
  have hof := Reading.of_eq x
  rw [h] at hof
  exact canonical_of_ofBits hof

/-- Magnitudes are compared by their exponents first. -/
theorem Canonical.compare_eq {m n : ℕ} {e f : ℤ} (hm : Canonical m e) (hn : Canonical n f) :
    (compare e f).then (compare m n) = compare ((m : ℚ) * 2 ^ e) (n * 2 ^ f) := by
  have hstep {m n : ℕ} {e f : ℤ} (hm : Canonical m e) (hn : Canonical n f) (h : e < f) :
      (m : ℚ) * 2 ^ e < n * 2 ^ f := by
    have hm' : (m : ℚ) < 2 ^ 53 := by exact_mod_cast hm.lt
    have hn' : (2 : ℚ) ^ 52 ≤ n := by exact_mod_cast hn.normal (hm.ge.trans_lt h)
    calc (m : ℚ) * 2 ^ e < 2 ^ 53 * 2 ^ e := mul_lt_mul_of_pos_right hm' (zpow_pos two_pos e)
      _ = 2 ^ 52 * 2 ^ (e + 1) := by rw [zpow_add_one₀ two_ne_zero]; ring
      _ ≤ 2 ^ 52 * 2 ^ f := by gcongr; exacts [one_le_two, h]
      _ ≤ n * 2 ^ f := by gcongr
  rcases lt_trichotomy e f with h | rfl | h
  · rw [compare_lt_iff_lt.mpr h, compare_lt_iff_lt.mpr (hstep hm hn h)]
    rfl
  · rw [compare_eq_iff_eq.mpr rfl]
    change compare m n = _
    have hscale : (0 : ℚ) < 2 ^ e := zpow_pos two_pos e
    rcases lt_trichotomy m n with h | rfl | h
    · rw [compare_lt_iff_lt.mpr h,
        compare_lt_iff_lt.mpr (mul_lt_mul_of_pos_right (Nat.cast_lt.mpr h) hscale)]
    · rw [compare_eq_iff_eq.mpr rfl, compare_eq_iff_eq.mpr rfl]
    · rw [compare_gt_iff_gt.mpr h,
        compare_gt_iff_gt.mpr (mul_lt_mul_of_pos_right (Nat.cast_lt.mpr h) hscale)]
  · rw [compare_gt_iff_gt.mpr h, compare_gt_iff_gt.mpr (hstep hn hm h)]
    rfl

/-- The order of opposites is turned round. -/
theorem compare_neg (p q : ℚ) : compare (-p) (-q) = (compare p q).swap := by
  rcases lt_trichotomy p q with h | rfl | h
  · rw [compare_lt_iff_lt.mpr h, compare_gt_iff_gt.mpr (neg_lt_neg h)]
    rfl
  · rw [compare_eq_iff_eq.mpr rfl, compare_eq_iff_eq.mpr rfl]
    rfl
  · rw [compare_gt_iff_gt.mpr h, compare_lt_iff_lt.mpr (neg_lt_neg h)]
    rfl

section Forms

variable {v : UnpackedFloat} {p q : ℚ} {m n : ℕ} {e f : ℤ}

/-- A zero of either sign is compared to a number as zero is. -/
theorem compare_zero_left (s : Sign) (hv : unpackedValue? v = some q) :
    (UnpackedFloat.zero s).compare v = some (compare 0 q) := by
  cases v with
  | infinity t | notANumber => cases hv
  | zero t =>
    cases hv
    rfl
  | finite t n f hn =>
    have hpos := magnitude_pos hn f
    cases t with
    | positive =>
      cases hv
      rw [compare_lt_iff_lt.mpr hpos]
      rfl
    | negative =>
      cases hv
      rw [compare_gt_iff_gt.mpr (neg_lt_zero.mpr hpos)]
      rfl

/-- A finite number is compared to a zero of either sign as to zero. -/
theorem compare_zero_right (s : Sign) {t : Sign} {hm : 0 < m}
    (hu : unpackedValue? (.finite t m e hm) = some p) :
    (UnpackedFloat.finite t m e hm).compare (.zero s) = some (compare p 0) := by
  have hpos := magnitude_pos hm e
  cases t with
  | positive =>
    cases hu
    rw [compare_gt_iff_gt.mpr hpos]
    rfl
  | negative =>
    cases hu
    rw [compare_lt_iff_lt.mpr (neg_lt_zero.mpr hpos)]
    rfl

/-- Canonical forms are compared as their values. -/
theorem compare_finite {s t : Sign} {hm : 0 < m} {hn : 0 < n} (hc : Canonical m e)
    (hd : Canonical n f) (hu : unpackedValue? (.finite s m e hm) = some p)
    (hv : unpackedValue? (.finite t n f hn) = some q) :
    (UnpackedFloat.finite s m e hm).compare (.finite t n f hn) = some (compare p q) := by
  have hmagnitude := hc.compare_eq hd
  have hpos := magnitude_pos hm e
  have hpos' := magnitude_pos hn f
  cases s with
  | positive =>
    cases hu
    cases t with
    | positive =>
      cases hv
      exact congrArg some hmagnitude
    | negative =>
      cases hv
      rw [compare_gt_iff_gt.mpr ((neg_lt_zero.mpr hpos').trans hpos)]
      rfl
  | negative =>
    cases hu
    cases t with
    | positive =>
      cases hv
      rw [compare_lt_iff_lt.mpr ((neg_lt_zero.mpr hpos).trans hpos')]
      rfl
    | negative =>
      cases hv
      rw [compare_neg, ← hmagnitude]
      rfl

end Forms

section Doubles

variable {x y : Float} {p q : ℚ} (hx : value? x = some p) (hy : value? y = some q)

include hx hy

/-- Doubles are compared as the numbers they stand for. -/
theorem compare_eq_compare_value : (unpacked x).compare (unpacked y) = some (compare p q) := by
  rw [value?] at hx hy
  cases hu : unpacked x with
  | infinity s | notANumber => rw [hu] at hx; cases hx
  | zero s =>
    rw [hu] at hx
    cases hx
    exact compare_zero_left s hy
  | finite s m e hm =>
    rw [hu] at hx
    cases hv : unpacked y with
    | infinity t | notANumber => rw [hv] at hy; cases hy
    | zero t =>
      rw [hv] at hy
      cases hy
      exact compare_zero_right t hx
    | finite t n f hn =>
      rw [hv] at hy
      exact compare_finite (canonical_of_finite hu) (canonical_of_finite hv) hx hy

/-- A double is smaller if its value is. -/
theorem lt_iff_value_lt : x < y ↔ p < q := by
  rw [lt_iff_compare, compare_eq_compare_value hx hy, Option.some.injEq, compare_lt_iff_lt]

/-- A double is at most another if its value is. -/
theorem le_iff_value_le : x ≤ y ↔ p ≤ q := by
  rw [le_iff_compare, compare_eq_compare_value hx hy, Option.any_some, ← compare_le_iff_le,
    Ordering.isLE_iff_ne_gt]

/-- Doubles compare equal if their values are equal. -/
theorem beq_iff_value_eq : (x == y) = true ↔ p = q := by
  rw [beq_iff_compare, compare_eq_compare_value hx hy, Option.some.injEq, compare_eq_iff_eq]

end Doubles

end SpatialSql.Decimal
