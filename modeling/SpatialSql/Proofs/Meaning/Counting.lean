import SpatialSql.Proofs.Decimal.Whole
import SpatialSql.Proofs.Meaning.Segments
import SpatialSql.Proofs.Text.Editing

/-!
# Formulas that count

A formula that counts does arithmetic on natural numbers in the number type of the row. It comes out
as far as that type computes with natural numbers exactly: doubles do below `2 ^ 53`, and rational
numbers without a limit.
-/

namespace SpatialSql

open Coordinate

/-- A whole number that is not negative is the natural number of its numerator. -/
theorem natCast_toNat_num {q : ℚ} (hden : q.den = 1) (hnum : 0 ≤ q.num) : (q.num.toNat : ℚ) = q := by
  rw [← Int.cast_natCast, Int.toNat_of_nonneg hnum]
  exact Rat.coe_int_num_of_den_eq_one hden

/-- The numbers of a type stand for rational numbers: they are compared as these are, and their natural
number is their value. -/
structure StandsFor {α : Type} [Numeral α] (value? : α → Option ℚ) : Prop where
  natural_iff {x : α} {n : ℕ} : Numeral.natural? x = some n ↔ value? x = some (n : ℚ)
  less_eq {x y : α} {p q : ℚ} : value? x = some p → value? y = some q →
    less x y = decide (p < q)
  atMost_eq {x y : α} {p q : ℚ} : value? x = some p → value? y = some q →
    atMost x y = decide (p ≤ q)
  beq_eq {x y : α} {p q : ℚ} : value? x = some p → value? y = some q →
    (x == y) = decide (p = q)

/-- Natural numbers up to a limit are exact, and so are their sums, their differences and their quotients
without remainder. -/
structure CountsUpTo {α : Type} [Numeral α] (value? : α → Option ℚ) (limit : ℕ) : Prop
    extends StandsFor value? where
  value_ofNat {n : ℕ} : n ≤ limit → value? (ofNat n) = some (n : ℚ)
  add_eq {m n : ℕ} : m + n ≤ limit → (ofNat m + ofNat n : α) = ofNat (m + n)
  sub_eq {m n : ℕ} : m ≤ limit → n ≤ m → (ofNat m - ofNat n : α) = ofNat (m - n)
  div_eq {m n : ℕ} : 0 < n → n ≤ limit → m * n ≤ limit →
    (ofNat (m * n) / ofNat n : α) = ofNat m

/-- Doubles stand for their values. -/
theorem standsFor_doubles : StandsFor Decimal.value? where
  natural_iff := Decimal.natural?_eq_some_iff
  less_eq hx hy := decide_eq_decide.mpr (Decimal.lt_iff_value_lt hx hy)
  atMost_eq hx hy := decide_eq_decide.mpr (Decimal.le_iff_value_le hx hy)
  beq_eq hx hy := by rw [Bool.eq_iff_iff, Decimal.beq_iff_value_eq hx hy, decide_eq_true_iff]

/-- Doubles count below the bound of their mantissa. -/
theorem countsUpTo_doubles {limit : ℕ} (h : limit < 2 ^ 53) : CountsUpTo Decimal.value? limit where
  toStandsFor := standsFor_doubles
  value_ofNat hn := Decimal.value?_ofNat (hn.trans_lt h)
  add_eq hn := Decimal.add_ofNat (hn.trans_lt h)
  sub_eq hm := Decimal.sub_ofNat (hm.trans_lt h)
  div_eq hpos hn hm := Decimal.div_ofNat hpos (hn.trans_lt h) (hm.trans_lt h)

/-- Exact numbers stand for themselves. -/
theorem standsFor_fractions : StandsFor (α := ℚ) some where
  natural_iff {x n} := by
    change (if x.den = 1 ∧ 0 ≤ x.num then some x.num.toNat else none) = some n ↔ some x = some ↑n
    constructor
    · intro h
      split at h
      · next hx => rw [← Option.some.inj h, natCast_toNat_num hx.1 hx.2]
      · contradiction
    · intro h
      rw [Option.some.inj h, if_pos ⟨Rat.den_natCast n, Rat.num_nonneg.mpr (Nat.cast_nonneg n)⟩,
        Rat.num_natCast, Int.toNat_natCast]
  less_eq hx hy := by cases hx; cases hy; rfl
  atMost_eq hx hy := by cases hx; cases hy; rfl
  beq_eq hx hy := by cases hx; cases hy; rfl

/-- Exact numbers count without a limit. -/
theorem countsUpTo_fractions (limit : ℕ) : CountsUpTo (α := ℚ) some limit where
  toStandsFor := standsFor_fractions
  value_ofNat _ := congrArg some (Int.cast_natCast _)
  add_eq _ := by simp [ofNat, ofInt]
  sub_eq _ h := by simp [ofNat, ofInt, h]
  div_eq {m n} hn _ _ := by
    have hn' : (n : ℚ) ≠ 0 := Nat.cast_ne_zero.mpr hn.ne'
    simp [ofNat, ofInt, hn']

variable {α : Type} [Numeral α] {value? : α → Option ℚ}

/-- A number stands for no natural number if its value is negative or a fraction, or if it has none. -/
theorem StandsFor.natural_eq_none_iff (h : StandsFor value?) {x : α} :
    Numeral.natural? x = none ↔ ∀ q, value? x = some q → q < 0 ∨ q.den ≠ 1 := by
  rw [Option.eq_none_iff_forall_ne_some]
  constructor
  · intro hnone q hq
    by_contra hnat
    rw [not_or, not_lt, not_not] at hnat
    obtain ⟨hnonneg, hden⟩ := hnat
    rw [← natCast_toNat_num hden (Rat.num_nonneg.mpr hnonneg)] at hq
    exact hnone q.num.toNat (h.natural_iff.mpr hq)
  · intro hvalue n hn
    rcases hvalue n (h.natural_iff.mp hn) with hneg | hden
    · exact absurd hneg (not_lt.mpr (Nat.cast_nonneg n))
    · exact hden (Rat.den_natCast n)

namespace CountsUpTo

variable {limit m n : ℕ}

/-- Numbers up to the limit are told apart. -/
theorem ofNat_injective (h : CountsUpTo value? limit) (hm : m ≤ limit) (hn : n ≤ limit)
    (heq : (ofNat m : α) = ofNat n) : m = n := by
  have hvalue : some (m : ℚ) = some (n : ℚ) := by
    rw [← h.value_ofNat hm, ← h.value_ofNat hn, heq]
  exact Nat.cast_injective (Option.some.inj hvalue)

/-- Numbers up to the limit are compared as natural numbers. -/
theorem less_ofNat (h : CountsUpTo value? limit) {x : α} (hx : value? x = some (m : ℚ))
    (hn : n ≤ limit) : less x (ofNat n) = decide (m < n) := by
  rw [h.less_eq hx (h.value_ofNat hn), decide_eq_decide, Nat.cast_lt]

theorem atMost_ofNat (h : CountsUpTo value? limit) (hm : m ≤ limit) (hn : n ≤ limit) :
    atMost (ofNat m : α) (ofNat n) = decide (m ≤ n) := by
  rw [h.atMost_eq (h.value_ofNat hm) (h.value_ofNat hn), decide_eq_decide, Nat.cast_le]

/-- A positive number up to the limit is not zero. -/
theorem ofNat_ne_zero (h : CountsUpTo value? limit) (hn : 0 < n) (hle : n ≤ limit) :
    ((ofNat n : α) == zero) = false := by
  have hzero : value? (zero : α) = some ((0 : ℕ) : ℚ) := h.value_ofNat (Nat.zero_le limit)
  rw [h.beq_eq (h.value_ofNat hle) hzero, decide_eq_false_iff_not, Nat.cast_inj]
  exact hn.ne'

end CountsUpTo

namespace Environment

open SpatialSql.Expr

variable {env : Environment α} {a : Expr α} {s : String}

theorem number_length (ha : env.text a = some s) : env.number a.length = some (ofNat s.length) :=
  number_of_eval (by rw [eval_length, ha]; rfl)

/-- A replacement is made in the text of the operand. -/
theorem text_replace (ha : env.text a = some s) (pattern replacement : String) :
    env.text (a.replace pattern replacement) =
      some (String.ofList (Text.replace pattern.toList replacement.toList s.toList)) :=
  text_of_eval (by rw [eval_replace, ha]; rfl)

/-- The formula for the number of occurrences of a mark gives their number. -/
theorem number_countOf (h : CountsUpTo value? s.length) (hone : 1 ≤ s.length)
    (ha : env.text a = some s) {needle : String} {mark : Char} (hn : needle.toList = [mark]) :
    env.number (a.countOf needle) = some (ofNat (s.toList.count mark)) := by
  have hlength : max needle.length 1 = 1 := by rw [← String.length_toList, hn]; rfl
  have hle : s.toList.count mark ≤ s.length := String.length_toList ▸ List.count_le_length
  have hremoved : (String.ofList (Text.replace needle.toList "".toList s.toList)).length =
      s.length - s.toList.count mark := by
    have hcount := Text.length_replace_mark mark s.toList
    rw [String.length_toList] at hcount
    rw [hn, ← String.length_toList, String.toList_ofList]
    exact Nat.eq_sub_of_add_eq hcount
  have hdifference := number_minus (number_length ha) (number_length (text_replace ha needle ""))
  rw [hremoved, h.sub_eq le_rfl (Nat.sub_le _ _), Nat.sub_sub_self hle] at hdifference
  have hcount := number_dividedBy hdifference (env.number_number (ofNat 1))
    (h.ofNat_ne_zero one_pos hone)
  have hquotient := h.div_eq one_pos hone ((Nat.mul_one _).trans_le hle)
  rw [Nat.mul_one] at hquotient
  rw [countOf, hlength, hcount, hquotient]

end Environment

end SpatialSql
