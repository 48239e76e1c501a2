import SpatialSql.Coordinate

/-!
# Doubles that compare equal

Doubles that compare equal are the same number, but zeros may differ in sign. The operations
on doubles are defined on their unpacked forms; `unsigned` forgets the sign of a zero there,
and each operation gives the same unsigned form on operands with the same unsigned forms.
Only a quotient by zero tells the two zeros apart. The text of a coordinate does not.
-/

namespace SpatialSql.Decimal

open Float.Model UnpackedFloat

/-- The unpacked form of a double. -/
abbrev unpacked (x : Float) : UnpackedFloat := x.toModel.unpack

/-- The double with the given unpacked form. -/
abbrev packed (u : UnpackedFloat) : Float := .ofModel (.pack u)

/-- The unpacked form without the sign of a zero. -/
def unsigned : UnpackedFloat → UnpackedFloat
  | .zero _ => .zero .positive
  | u => u

section Unpacked

variable (u v : UnpackedFloat)

/-- Only zeros have a sign to forget. -/
theorem unsigned_of_ne (hu : ∀ s, u ≠ .zero s) : unsigned u = u := by
  cases u with
  | zero s => exact absurd rfl (hu s)
  | infinity s | notANumber | finite s m e hm => rfl

/-- The signs of zeros show in a sum only as the sign of a zero. -/
theorem unsigned_add : unsigned (add .binary64 u v) =
    unsigned (add .binary64 (unsigned u) (unsigned v)) := by
  cases u with
  | zero s =>
    cases v with
    | zero t => cases s <;> cases t <;> rfl
    | infinity t | notANumber | finite t m e hm => rfl
  | infinity s | notANumber | finite s m e hm => cases v <;> rfl

/-- The opposite of a zero is a zero. -/
theorem unsigned_neg : unsigned u.neg = unsigned (unsigned u).neg := by
  cases u <;> rfl

theorem unsigned_unsigned : unsigned (unsigned u) = unsigned u := by
  cases u <;> rfl

/-- A difference is the sum with the opposite form. -/
theorem sub_eq_add_neg : sub .binary64 u v = add .binary64 u v.neg := by
  cases u with
  | finite s m e hm =>
    cases v with
    | finite t n f hn =>
      have hmantissa (a b : Int) : a - t.apply b = a + (-t).apply b := by
        cases t with
        | negative => exact Int.sub_neg a b
        | positive => exact Int.sub_eq_add_neg
      exact congrArg (fun mantissa => UnpackedFloat.normalize .binary64 mantissa (min e f) .positive)
        (hmantissa _ _)
    | zero t | infinity t | notANumber => rfl
  | zero s | infinity s | notANumber => cases v <;> rfl

/-- The signs of zeros show in a difference only as the sign of a zero. -/
theorem unsigned_sub : unsigned (sub .binary64 u v) =
    unsigned (sub .binary64 (unsigned u) (unsigned v)) := by
  rw [sub_eq_add_neg, sub_eq_add_neg, unsigned_add u, unsigned_neg v,
    unsigned_add (unsigned u) (unsigned v).neg, unsigned_unsigned u]

/-- The signs of zeros show in a product only as the sign of a zero. -/
theorem unsigned_mul : unsigned (mul .binary64 u v) =
    unsigned (mul .binary64 (unsigned u) (unsigned v)) := by
  cases u <;> cases v <;> rfl

/-- The sign of a divisor that is zero shows in the quotient, other zeros do not. -/
theorem unsigned_div (hv : ∀ s, v ≠ .zero s) : unsigned (div .binary64 u v) =
    unsigned (div .binary64 (unsigned u) (unsigned v)) := by
  cases v with
  | zero s => exact absurd rfl (hv s)
  | infinity t | notANumber | finite t m e hm => cases u <;> rfl

theorem unsigned_sqrt : unsigned (sqrt .binary64 u) = unsigned (sqrt .binary64 (unsigned u)) := by
  cases u <;> rfl

/-- Comparisons do not look at the signs of zeros. -/
theorem compare_unsigned : u.compare v = (unsigned u).compare (unsigned v) := by
  cases u with
  | zero s =>
    cases v with
    | infinity t => cases t <;> rfl
    | finite t m e hm => cases t <;> rfl
    | zero t | notANumber => rfl
  | infinity s => cases s <;> cases v <;> rfl
  | finite s m e hm => cases s <;> cases v <;> rfl
  | notANumber => rfl

theorem isNaN_unsigned : u.isNaN = (unsigned u).isNaN := by
  cases u <;> rfl

/-- Forms that compare equal agree but for the sign of a zero. -/
theorem unsigned_of_compare (h : u.compare v = some .eq) : unsigned u = unsigned v := by
  have hfinite {m n : Nat} {e f : Int} (h : (compare e f).then (compare m n) = .eq) :
      m = n ∧ e = f := by
    obtain ⟨he, hm⟩ := Ordering.then_eq_eq.mp h
    exact ⟨Nat.compare_eq_eq.mp hm, Int.compare_eq_eq.mp he⟩
  cases u with
  | notANumber => cases h
  | zero s =>
    cases v with
    | zero t => rfl
    | notANumber => cases h
    | infinity t => cases t <;> cases h
    | finite t n f hn => cases t <;> cases h
  | infinity s =>
    cases v with
    | infinity t => cases s <;> cases t <;> cases h <;> rfl
    | zero t | notANumber | finite t n f hn => cases s <;> cases h
  | finite s m e hm =>
    cases v with
    | zero t => cases s <;> cases h
    | notANumber => cases s <;> cases h
    | infinity t => cases s <;> cases t <;> cases h
    | finite t n f hn =>
      cases s with
      | negative =>
        cases t with
        | positive => cases h
        | negative =>
          obtain ⟨rfl, rfl⟩ := hfinite (Ordering.swap_eq_eq.mp (Option.some.inj h))
          rfl
      | positive =>
        cases t with
        | negative => cases h
        | positive =>
          obtain ⟨rfl, rfl⟩ := hfinite (Option.some.inj h)
          rfl

end Unpacked

/-- Two doubles are the same or compare equal. -/
def Alike (x y : Float) : Prop := x = y ∨ (x == y) = true

/-- Comparing doubles compares their unpacked forms. -/
theorem beq_iff_compare {x y : Float} :
    (x == y) = true ↔ (unpacked x).compare (unpacked y) = some .eq :=
  beq_iff_eq (a := (unpacked x).compare (unpacked y))

/-- The order of doubles is that of their unpacked forms. -/
theorem lt_iff_compare {x y : Float} :
    x < y ↔ (unpacked x).compare (unpacked y) = some .lt := by
  change decide (((unpacked x).compare (unpacked y) == some Ordering.lt) = true) = true ↔ _
  rw [decide_eq_true_eq, beq_iff_eq]

/-- The same with equality; nothing holds of NaN. -/
theorem le_iff_compare {x y : Float} :
    x ≤ y ↔ ((unpacked x).compare (unpacked y)).any Ordering.isLE = true := by
  change decide (((unpacked x).compare (unpacked y)).any Ordering.isLE = true) = true ↔ _
  rw [decide_eq_true_eq]

/-- Doubles are alike if their unpacked forms agree but for the sign of a zero. -/
theorem alike_packed {u v : UnpackedFloat} (h : unsigned u = unsigned v) :
    Alike (packed u) (packed v) := by
  have hsame (heq : u = v) : Alike (packed u) (packed v) := Or.inl (congrArg packed heq)
  cases u with
  | zero s =>
    cases v with
    | zero t => exact Or.inr (by cases s <;> cases t <;> decide +kernel)
    | infinity t | notANumber | finite t n f hn => cases h
  | infinity s | notANumber | finite s m e hm =>
    cases v with
    | zero t => cases h
    | infinity t | notANumber | finite t n f hn => exact hsame h

/-- A double that does not compare equal to zero is no zero of either sign. -/
theorem unpacked_ne_zero {x : Float} (h : (x == 0) = false) (s : Sign) : unpacked x ≠ .zero s := by
  intro hx
  have h0 : (x == 0) = true := by
    rw [beq_iff_compare, hx]
    cases s <;> decide +kernel
  rw [h0] at h
  contradiction

/-- Every double but NaN compares equal to itself. -/
theorem beq_self_of_not_isNaN {x : Float} (h : x.isNaN = false) : (x == x) = true := by
  rw [beq_iff_compare]
  change (unpacked x).isNaN = false at h
  cases hu : unpacked x with
  | notANumber =>
    rw [hu] at h
    contradiction
  | zero s => rfl
  | infinity s => cases s <;> rfl
  | finite s m e hm =>
    have hself : (compare e e).then (compare m m) = .eq := by simp
    cases s with
    | negative => exact congrArg (fun o => some o.swap) hself
    | positive => exact congrArg some hself

/-- The order of two doubles does not matter for comparing them. -/
theorem beq_comm (x y : Float) : (x == y) = (y == x) := by
  have hsymm {x y : Float} (h : (x == y) = true) : (y == x) = true := by
    rw [beq_iff_compare] at h ⊢
    have hu := unsigned_of_compare _ _ h
    rw [compare_unsigned, hu] at h
    rw [compare_unsigned, hu]
    exact h
  exact Bool.eq_iff_iff.mpr ⟨hsymm, hsymm⟩

namespace Alike

variable {x x' y y' : Float}

theorem refl (x : Float) : Alike x x := Or.inl rfl

/-- Doubles that are alike have the same form but for the sign of a zero. -/
theorem unsigned_eq (h : Alike x y) : unsigned (unpacked x) = unsigned (unpacked y) := by
  rcases h with rfl | h
  · rfl
  · exact unsigned_of_compare _ _ (beq_iff_compare.mp h)

/-- Doubles that are alike compare equal unless they are NaN. -/
theorem beq (h : Alike x y) (hx : x.isNaN = false) : (x == y) = true := by
  rcases h with rfl | h
  · exact beq_self_of_not_isNaN hx
  · exact h

/-- Doubles that are alike stand in the same order to others. -/
theorem compare_eq (hx : Alike x x') (hy : Alike y y') :
    (unpacked x).compare (unpacked y) = (unpacked x').compare (unpacked y') := by
  rw [compare_unsigned, hx.unsigned_eq, hy.unsigned_eq, ← compare_unsigned]

theorem beq_eq (hx : Alike x x') (hy : Alike y y') : (x == y) = (x' == y') :=
  congrArg (· == some Ordering.eq) (hx.compare_eq hy)

theorem lt_iff (hx : Alike x x') (hy : Alike y y') : x < y ↔ x' < y' := by
  rw [lt_iff_compare, lt_iff_compare, hx.compare_eq hy]

theorem le_iff (hx : Alike x x') (hy : Alike y y') : x ≤ y ↔ x' ≤ y' := by
  rw [le_iff_compare, le_iff_compare, hx.compare_eq hy]

theorem isNaN_eq (hx : Alike x x') : x.isNaN = x'.isNaN := by
  change (unpacked x).isNaN = (unpacked x').isNaN
  rw [isNaN_unsigned, hx.unsigned_eq, ← isNaN_unsigned]

/-- Sums of doubles that are alike are alike. -/
theorem add (hx : Alike x x') (hy : Alike y y') : Alike (x + y) (x' + y') := by
  apply alike_packed
  rw [unsigned_add, hx.unsigned_eq, hy.unsigned_eq, ← unsigned_add]

/-- Differences of doubles that are alike are alike. -/
theorem sub (hx : Alike x x') (hy : Alike y y') : Alike (x - y) (x' - y') := by
  apply alike_packed
  rw [unsigned_sub, hx.unsigned_eq, hy.unsigned_eq, ← unsigned_sub]

/-- Products of doubles that are alike are alike. -/
theorem mul (hx : Alike x x') (hy : Alike y y') : Alike (x * y) (x' * y') := by
  apply alike_packed
  rw [unsigned_mul, hx.unsigned_eq, hy.unsigned_eq, ← unsigned_mul]

theorem neg (hx : Alike x x') : Alike (-x) (-x') := by
  apply alike_packed
  rw [unsigned_neg, hx.unsigned_eq, ← unsigned_neg]

theorem sqrt (hx : Alike x x') : Alike x.sqrt x'.sqrt := by
  apply alike_packed
  rw [unsigned_sqrt, hx.unsigned_eq, ← unsigned_sqrt]

/-- Quotients of doubles that are alike are alike, unless the divisor is a zero. -/
theorem div (hx : Alike x x') (hy : Alike y y') (h0 : (y == 0) = false) :
    Alike (x / y) (x' / y') := by
  have h0' : (y' == 0) = false := (hy.beq_eq (refl 0)).symm.trans h0
  apply alike_packed
  rw [unsigned_div _ _ (unpacked_ne_zero h0), hx.unsigned_eq, hy.unsigned_eq,
    ← unsigned_div _ _ (unpacked_ne_zero h0')]

/-- Choosing between two doubles, where NaN is never chosen over a number, by tests that agree. -/
theorem chosen {c c' : Prop} [Decidable c] [Decidable c'] (hc : c ↔ c') (hx : Alike x x')
    (hy : Alike y y') :
    Alike (if x.isNaN then y else if y.isNaN then x else if c then y else x)
      (if x'.isNaN then y' else if y'.isNaN then x' else if c' then y' else x') := by
  rw [hx.isNaN_eq, hy.isNaN_eq]
  simp only [hc]
  split
  · exact hy
  split
  · exact hx
  split
  · exact hy
  · exact hx

/-- The smaller of two doubles is one of them. -/
theorem lesser (hx : Alike x x') (hy : Alike y y') : Alike (lesser x y) (lesser x' y') :=
  chosen (hy.lt_iff hx) hx hy

/-- The larger of two doubles is one of them. -/
theorem larger (hx : Alike x x') (hy : Alike y y') : Alike (larger x y) (larger x' y') :=
  chosen (hx.lt_iff hy) hx hy

end Alike

/-- The parts of a double, from its unpacked form. -/
def Reading.ofUnpacked : UnpackedFloat → Reading
  | .infinity s => .infinite (s == .negative)
  | .notANumber => .nan
  | .zero s => .finite ⟨s == .negative, 0, -1074, false⟩
  | .finite s m e _ => .finite ⟨s == .negative, m, e, decide (m = Nat.pow 2 52 ∧ -1074 < e)⟩

/-- A finite form is read with its mantissa and exponent as they stand. -/
theorem Reading.ofUnpacked_finite (s : Sign) (m : Nat) (e : Int) (hm : 0 < m) :
    ofUnpacked (.finite s m e hm) =
      .finite ⟨s == .negative, m, e, decide (m = Nat.pow 2 52 ∧ -1074 < e)⟩ := rfl

section Bits

variable (b : BitVec 64)

/-- The mantissa takes up the lowest 52 bits. -/
theorem toNat_unpackMantissa :
    (@unpackMantissa Format.binary64 b).toNat = b.toNat % Nat.pow 2 52 := by
  simp [unpackMantissa]

/-- The exponent takes up the next 11 bits. -/
theorem toNat_unpackExponent :
    (@unpackExponent Format.binary64 b).toNat = b.toNat / Nat.pow 2 52 % Nat.pow 2 11 := by
  simp [unpackExponent, Nat.shiftRight_eq_div_pow]

/-- The sign is the highest bit. -/
theorem unpackSign_eq_negative :
    (Sign.ofBitVec (@unpackSign Format.binary64 b) == .negative) =
      decide (Nat.pow 2 63 ≤ b.toNat % Nat.pow 2 64) := by
  have hs : (@unpackSign Format.binary64 b).toNat = b.toNat / 2 ^ 63 % 2 := by
    change (b.extractLsb 63 63).toNat = _
    simp [Nat.shiftRight_eq_div_pow]
  have hb := b.isLt
  by_cases h0 : @unpackSign Format.binary64 b = 0#1
  · rw [h0] at hs ⊢
    have hlow : ¬ Nat.pow 2 63 ≤ b.toNat % Nat.pow 2 64 := by
      change 0 = _ at hs
      change ¬ 2 ^ 63 ≤ b.toNat % 2 ^ 64
      omega
    rw [decide_eq_false hlow]
    rfl
  · have hne : (@unpackSign Format.binary64 b).toNat ≠ 0 := fun h => h0 (BitVec.eq_of_toNat_eq h)
    have hhigh : Nat.pow 2 63 ≤ b.toNat % Nat.pow 2 64 := by
      change 2 ^ 63 ≤ b.toNat % 2 ^ 64
      omega
    rw [decide_eq_true hhigh, Sign.ofBitVec, if_neg h0]
    rfl

/-- The bits of a double hold what its unpacked form says. -/
theorem ofBits_eq_ofUnpacked :
    Reading.ofBits b.toNat = .ofUnpacked (UnpackedFloat.unpack Format.binary64 b) := by
  have hall : @unpackExponent Format.binary64 b = -1#11 ↔
      (@unpackExponent Format.binary64 b).toNat = Nat.pow 2 11 - 1 :=
    BitVec.toNat_inj.symm
  have hnone : @unpackExponent Format.binary64 b = 0#11 ↔
      (@unpackExponent Format.binary64 b).toNat = 0 :=
    BitVec.toNat_inj.symm
  have hzero : @unpackMantissa Format.binary64 b = 0#52 ↔
      (@unpackMantissa Format.binary64 b).toNat = 0 :=
    BitVec.toNat_inj.symm
  have hhidden : (1#1 ++ @unpackMantissa Format.binary64 b).toNat =
      Nat.pow 2 52 + (@unpackMantissa Format.binary64 b).toNat := by
    rw [BitVec.toNat_append, ← Nat.shiftLeft_add_eq_or_of_lt (BitVec.isLt _)]
    simp [Nat.shiftLeft_eq]
  unfold Reading.ofBits UnpackedFloat.unpack
  rw [← toNat_unpackMantissa, ← toNat_unpackExponent, ← unpackSign_eq_negative]
  dsimp only
  by_cases h₁ : @unpackExponent Format.binary64 b = -1#11
  · rw [if_pos (hall.mp h₁), if_pos h₁]
    by_cases h₂ : @unpackMantissa Format.binary64 b = 0#52
    · rw [if_pos (hzero.mp h₂), if_pos h₂]
      rfl
    · rw [if_neg (mt hzero.mpr h₂), if_neg h₂]
      rfl
  · rw [if_neg (mt hall.mpr h₁), if_neg h₁]
    by_cases h₃ : @unpackExponent Format.binary64 b = 0#11
    · rw [if_pos (hnone.mp h₃), if_pos h₃]
      by_cases h₂ : @unpackMantissa Format.binary64 b = 0#52
      · rw [dif_pos h₂, hzero.mp h₂]
        rfl
      · have hlt : (@unpackMantissa Format.binary64 b).toNat < Nat.pow 2 52 := BitVec.isLt _
        rw [dif_neg h₂, Reading.ofUnpacked_finite, hnone.mp h₃, decide_eq_false fun h => by omega]
        rfl
    · have hmark : ((1#1 ++ @unpackMantissa Format.binary64 b).toNat = Nat.pow 2 52 ∧
          -1074 < ((@unpackExponent Format.binary64 b).toNat : Int) - 1075) ↔
          ((@unpackMantissa Format.binary64 b).toNat = 0 ∧
            1 < (@unpackExponent Format.binary64 b).toNat) := by
        rw [hhidden]
        omega
      rw [if_neg (mt hnone.mpr h₃), if_neg h₃, ← decide_eq_decide.mpr hmark, ← hhidden]
      rfl

end Bits

/-- A double is read off its bits as off its unpacked form. -/
theorem Reading.of_eq (x : Float) : Reading.of x = .ofUnpacked (unpacked x) :=
  ofBits_eq_ofUnpacked x.toModel.toBits.toBitVec

/-- The text of a coordinate does not show the sign of a zero. -/
theorem Alike.coordinateText_eq {x y : Float} (h : Alike x y) :
    coordinateText x = coordinateText y := by
  have hzero : (x == 0) = (y == 0) := h.beq_eq (refl 0)
  unfold coordinateText
  rw [hzero]
  cases hy : y == 0 with
  | true => rfl
  | false =>
    have hunpacked := h.unsigned_eq
    rw [unsigned_of_ne _ (unpacked_ne_zero (hzero.trans hy)),
      unsigned_of_ne _ (unpacked_ne_zero hy)] at hunpacked
    simp only [Layout.text, Reading.of_eq, hunpacked]

end SpatialSql.Decimal
