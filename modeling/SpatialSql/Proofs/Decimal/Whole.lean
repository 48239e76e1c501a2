import SpatialSql.Proofs.Decimal.Value

/-!
# Natural numbers as doubles

Below `2 ^ 53` a natural number fits the mantissa of a double. Sums, differences and quotients
without remainder of such numbers are rounded, but rounding does not change a number that fits, so
they are exact as long as the result stays below the bound. Larger numbers are rounded, at the most
to an infinity, but never to zero.
-/

namespace SpatialSql.Decimal

open Float.Model UnpackedFloat

/-- The unpacked form of a natural number that fits the mantissa. -/
def whole (n : ℕ) : UnpackedFloat :=
  if h : n = 0 then .zero .positive
  else .finite .positive (n * 2 ^ (52 - n.log2)) ((n.log2 : ℤ) - 52)
    (Nat.mul_pos (Nat.pos_of_ne_zero h) (Nat.two_pow_pos _))

variable {m n k : ℕ}

theorem whole_zero : whole 0 = .zero .positive := rfl

/-- A positive number fills up all 53 bits of the mantissa. -/
theorem whole_of_pos (hn : 0 < n) : whole n =
    .finite .positive (n * 2 ^ (52 - n.log2)) ((n.log2 : ℤ) - 52)
      (Nat.mul_pos hn (Nat.two_pow_pos _)) :=
  dif_neg hn.ne'

/-- A factor of two is one more place. -/
theorem log2_mul_two_pow (hn : 0 < n) (k : ℕ) : (n * 2 ^ k).log2 = n.log2 + k := by
  have hne : n * 2 ^ k ≠ 0 := (Nat.mul_pos hn (Nat.two_pow_pos k)).ne'
  rw [Nat.log2_eq_iff hne, Nat.pow_add, Nat.add_right_comm, Nat.pow_add]
  exact ⟨Nat.mul_le_mul_right _ (Nat.log2_self_le hn.ne'),
    Nat.mul_lt_mul_of_pos_right Nat.lt_log2_self (Nat.two_pow_pos k)⟩

/-- A number below `2 ^ 53` has at most 53 places. -/
theorem log2_le_of_lt (hn : n < 2 ^ 53) : n.log2 ≤ 52 := by
  rcases Nat.eq_zero_or_pos n with rfl | hpos
  · decide
  · exact Nat.le_of_lt_succ ((Nat.log2_lt hpos.ne').mpr hn)

/-- Shifting out zeros is exact. -/
theorem shiftRight_exact (m k : ℕ) :
    ExtendedMantissa.ofMantissaAndAccuracy (m * 2 ^ k) .exact >>> k =
      .ofMantissaAndAccuracy m .exact := by
  change Nat.repeat ExtendedMantissa.shiftRightOne k ⟨m * 2 ^ k, false, false⟩ = ⟨m, false, false⟩
  induction k generalizing m with
  | zero => simp [Nat.repeat]
  | succ k ih =>
    rw [Nat.repeat, Nat.pow_succ', ← Nat.mul_assoc, ih]
    simp [ExtendedMantissa.shiftRightOne]

/-- The exponent a whole number is rounded to does not depend on how it was scaled. -/
theorem targetExponent_whole (hn : 0 < n) (hlog : n.log2 ≤ 52) (k : ℕ) :
    Format.binary64.targetExponent (totalExponent (n * 2 ^ k) (-k)) = (n.log2 : ℤ) - 52 := by
  rw [totalExponent, log2_mul_two_pow hn]
  change max (((n.log2 + k : ℕ) : ℤ) + 1 + -k - 53) (-1074) = _
  omega

/-- A whole number is shifted to its canonical mantissa without loss. -/
theorem shiftToTargetExponent_whole (hn : 0 < n) (hlog : n.log2 ≤ 52) (hk : 52 - n.log2 ≤ k) :
    shiftToTargetExponent .binary64 (n * 2 ^ k) (-k) .exact =
      (.ofMantissaAndAccuracy (n * 2 ^ (52 - n.log2)) .exact, (n.log2 : ℤ) - 52) := by
  have hshift : ((n.log2 : ℤ) - 52 - -k).toNat = k - (52 - n.log2) := by omega
  have hsplit : n * 2 ^ k = n * 2 ^ (52 - n.log2) * 2 ^ (k - (52 - n.log2)) := by
    rw [Nat.mul_assoc, ← Nat.pow_add, Nat.add_sub_cancel' hk]
  have hexponent : -(k : ℤ) + ((k - (52 - n.log2) : ℕ) : ℤ) = (n.log2 : ℤ) - 52 := by omega
  rw [shiftToTargetExponent, targetExponent_whole hn hlog, shiftToExponent, hshift, hexponent,
    hsplit, shiftRight_exact]

/-- Rounding does not change a natural number that fits the mantissa, however it is scaled. -/
theorem roundWithAccuracy_whole (hn : 0 < n) (hlog : n.log2 ≤ 52) (hk : 52 - n.log2 ≤ k) :
    roundWithAccuracy .binary64 .positive (n * 2 ^ k) (-k) .exact = whole n := by
  have hexponent : (n.log2 : ℤ) - 52 = -((52 - n.log2 : ℕ) : ℤ) := by omega
  have hpos : 0 < n * 2 ^ (52 - n.log2) := Nat.mul_pos hn (Nat.two_pow_pos _)
  have hrounded (m : ℕ) :
      (ExtendedMantissa.ofMantissaAndAccuracy m .exact).roundedMantissa = m := rfl
  rw [roundWithAccuracy, shiftToTargetExponent_whole hn hlog hk]
  dsimp only
  rw [hrounded, hexponent, shiftToTargetExponent_whole hn hlog le_rfl, whole_of_pos hn]
  exact dif_neg hpos.ne'

/-- A whole number that fits is rounded to its canonical form. -/
theorem round_whole (hn : 0 < n) (hlog : n.log2 ≤ 52) (k : ℕ) :
    UnpackedFloat.round .binary64 .positive (n * 2 ^ k) (-k) = whole n := by
  have hscale : decreaseExponent (n * 2 ^ k) (-k) ((n.log2 : ℤ) - 52) =
      (n * 2 ^ max k (52 - n.log2), -((max k (52 - n.log2) : ℕ) : ℤ)) := by
    have hshift : (-(k : ℤ) - ((n.log2 : ℤ) - 52)).toNat = 52 - n.log2 - k := by omega
    have hsum : k + (52 - n.log2 - k) = max k (52 - n.log2) := by omega
    rw [decreaseExponent, hshift, Nat.shiftLeft_eq, Nat.mul_assoc, ← Nat.pow_add, hsum]
    refine Prod.ext rfl ?_
    change -(k : ℤ) - ((52 - n.log2 - k : ℕ) : ℤ) = _
    omega
  rw [UnpackedFloat.round, targetExponent_whole hn hlog, hscale]
  exact roundWithAccuracy_whole hn hlog (le_max_right _ _)

/-- Normalizing a whole number gives its canonical form, zero included. -/
theorem normalize_whole (hn : n < 2 ^ 53) (k : ℕ) :
    UnpackedFloat.normalize .binary64 ((n * 2 ^ k : ℕ) : ℤ) (-k) .positive = whole n := by
  rcases Nat.eq_zero_or_pos n with rfl | hpos
  · rw [Nat.zero_mul]
    rfl
  · have hgt : compare ((n * 2 ^ k : ℕ) : ℤ) 0 = .gt := by
      rw [Int.compare_eq_gt]
      exact Int.natCast_pos.mpr (Nat.mul_pos hpos (Nat.two_pow_pos k))
    rw [UnpackedFloat.normalize, hgt]
    exact round_whole hpos (log2_le_of_lt hn) k

/-- Two natural numbers on a common scale. -/
theorem decreaseExponent_whole (hlog : n.log2 ≤ 52) (hk : 52 - n.log2 ≤ k) :
    (decreaseExponent (n * 2 ^ (52 - n.log2)) ((n.log2 : ℤ) - 52) (-k)).1 = n * 2 ^ k := by
  have hshift : ((n.log2 : ℤ) - 52 - -k).toNat = k - (52 - n.log2) := by omega
  change (n * 2 ^ (52 - n.log2)) <<< ((n.log2 : ℤ) - 52 - -k).toNat = _
  rw [hshift, Nat.shiftLeft_eq, Nat.mul_assoc, ← Nat.pow_add, Nat.add_sub_cancel' hk]

/-- The smaller exponent of two canonical forms belongs to the one that is shifted further. -/
theorem min_exponent (hm : m.log2 ≤ 52) (hn : n.log2 ≤ 52) :
    min ((m.log2 : ℤ) - 52) ((n.log2 : ℤ) - 52) =
      -((max (52 - m.log2) (52 - n.log2) : ℕ) : ℤ) := by
  omega

/-- Positive numbers are added over their smaller exponent. -/
theorem add_positive {e f : ℤ} (hm : 0 < m) (hn : 0 < n) :
    UnpackedFloat.add .binary64 (.finite .positive m e hm) (.finite .positive n f hn) =
      UnpackedFloat.normalize .binary64 (((decreaseExponent m e (min e f)).1 : ℤ) +
        ((decreaseExponent n f (min e f)).1 : ℤ)) (min e f) .positive := rfl

/-- Positive numbers are subtracted over their smaller exponent. -/
theorem sub_positive {e f : ℤ} (hm : 0 < m) (hn : 0 < n) :
    UnpackedFloat.sub .binary64 (.finite .positive m e hm) (.finite .positive n f hn) =
      UnpackedFloat.normalize .binary64 (((decreaseExponent m e (min e f)).1 : ℤ) -
        ((decreaseExponent n f (min e f)).1 : ℤ)) (min e f) .positive := rfl

/-- A product of positive numbers is rounded once. -/
theorem mul_positive {e f : ℤ} (hm : 0 < m) (hn : 0 < n) :
    UnpackedFloat.mul .binary64 (.finite .positive m e hm) (.finite .positive n f hn) =
      roundWithAccuracy .binary64 .positive (m * n) (e + f) .exact := rfl

/-- A quotient of positive numbers is rounded once. -/
theorem div_positive {e f : ℤ} (hm : 0 < m) (hn : 0 < n) :
    UnpackedFloat.div .binary64 (.finite .positive m e hm) (.finite .positive n f hn) =
      roundWithAccuracy .binary64 .positive (divCore .binary64 m e n f).1
        (divCore .binary64 m e n f).2.1 (divCore .binary64 m e n f).2.2 := rfl

/-- Sums of whole numbers that fit are exact. -/
theorem add_whole (h : m + n < 2 ^ 53) :
    UnpackedFloat.add .binary64 (whole m) (whole n) = whole (m + n) := by
  rcases Nat.eq_zero_or_pos m with rfl | hm
  · rw [Nat.zero_add, whole_zero]
    rcases Nat.eq_zero_or_pos n with rfl | hn
    · rfl
    · rw [whole_of_pos hn]
      rfl
  rcases Nat.eq_zero_or_pos n with rfl | hn
  · rw [Nat.add_zero, whole_zero, whole_of_pos hm]
    rfl
  have hmlog : m.log2 ≤ 52 := log2_le_of_lt (by omega)
  have hnlog : n.log2 ≤ 52 := log2_le_of_lt (by omega)
  rw [whole_of_pos hm, whole_of_pos hn, add_positive, min_exponent hmlog hnlog,
    decreaseExponent_whole hmlog (le_max_left _ _), decreaseExponent_whole hnlog (le_max_right _ _),
    ← Int.natCast_add, ← Nat.add_mul, normalize_whole h]

/-- Differences of whole numbers that fit are exact. -/
theorem sub_whole (hm : m < 2 ^ 53) (h : n ≤ m) :
    UnpackedFloat.sub .binary64 (whole m) (whole n) = whole (m - n) := by
  rcases Nat.eq_zero_or_pos n with rfl | hn
  · rw [Nat.sub_zero, whole_zero]
    rcases Nat.eq_zero_or_pos m with rfl | hm
    · rfl
    · rw [whole_of_pos hm]
      rfl
  have hmlog : m.log2 ≤ 52 := log2_le_of_lt hm
  have hnlog : n.log2 ≤ 52 := log2_le_of_lt (h.trans_lt hm)
  rw [whole_of_pos (hn.trans_le h), whole_of_pos hn, sub_positive, min_exponent hmlog hnlog,
    decreaseExponent_whole hmlog (le_max_left _ _), decreaseExponent_whole hnlog (le_max_right _ _),
    ← Int.natCast_sub (Nat.mul_le_mul_right _ h), ← Nat.sub_mul,
    normalize_whole ((Nat.sub_le m n).trans_lt hm)]

/-- One is neutral. -/
theorem mul_whole_one (hn : n < 2 ^ 53) :
    UnpackedFloat.mul .binary64 (whole n) (whole 1) = whole n := by
  rcases Nat.eq_zero_or_pos n with rfl | hpos
  · rfl
  have hlog : n.log2 ≤ 52 := log2_le_of_lt hn
  have hone : whole 1 = .finite .positive (2 ^ 52) (-52) (by decide) := rfl
  have hmantissa : n * 2 ^ (52 - n.log2) * 2 ^ 52 = n * 2 ^ (104 - n.log2) := by
    rw [Nat.mul_assoc, ← Nat.pow_add]
    congr 2
    omega
  have hexponent : (n.log2 : ℤ) - 52 + -52 = -((104 - n.log2 : ℕ) : ℤ) := by omega
  rw [hone, whole_of_pos hpos, mul_positive, hmantissa, hexponent,
    roundWithAccuracy_whole hpos hlog (by omega), whole_of_pos hpos]

/-- The number of places of a canonical form is that of the number. -/
theorem totalExponent_whole (hn : 0 < n) (hlog : n.log2 ≤ 52) :
    totalExponent (n * 2 ^ (52 - n.log2)) ((n.log2 : ℤ) - 52) = n.log2 + 1 := by
  rw [totalExponent, log2_mul_two_pow hn]
  omega

/-- A product has at most one place more than its factors together. -/
theorem log2_mul_le (hm : 0 < m) (hn : 0 < n) : (m * n).log2 ≤ m.log2 + n.log2 + 1 := by
  have hlt : m * n < 2 ^ (m.log2 + 1) * 2 ^ (n.log2 + 1) :=
    Nat.mul_lt_mul'' Nat.lt_log2_self Nat.lt_log2_self
  rw [← Nat.pow_add, ← Nat.log2_lt (Nat.mul_pos hm hn).ne'] at hlt
  omega

/-- The quotient of natural numbers is computed on a scale where it has no remainder. -/
theorem divCore_whole (hm : 0 < m) (hn : 0 < n) (hlog : (m * n).log2 ≤ 52)
    (hle : n.log2 ≤ (m * n).log2) :
    divCore .binary64 (m * n * 2 ^ (52 - (m * n).log2)) (((m * n).log2 : ℤ) - 52)
        (n * 2 ^ (52 - n.log2)) ((n.log2 : ℤ) - 52) =
      (m * 2 ^ (53 + n.log2 - (m * n).log2), -((53 + n.log2 - (m * n).log2 : ℕ) : ℤ), .exact) := by
  have htarget : min (((m * n).log2 : ℤ) - 52 - ((n.log2 : ℤ) - 52))
      (Format.binary64.targetExponent (((m * n).log2 : ℤ) + 1 - ((n.log2 : ℤ) + 1))) =
        -((53 + n.log2 - (m * n).log2 : ℕ) : ℤ) := by
    change min (((m * n).log2 : ℤ) - 52 - ((n.log2 : ℤ) - 52))
      (max (((m * n).log2 : ℤ) + 1 - ((n.log2 : ℤ) + 1) - 53) (-1074)) = _
    omega
  have hshift : (((m * n).log2 : ℤ) - 52 - ((n.log2 : ℤ) - 52) -
      -((53 + n.log2 - (m * n).log2 : ℕ) : ℤ)).toNat = 53 := by
    omega
  have hmultiple : (m * n * 2 ^ (52 - (m * n).log2)) <<< 53 =
      m * 2 ^ (53 + n.log2 - (m * n).log2) * (n * 2 ^ (52 - n.log2)) := by
    have hscale : 52 - (m * n).log2 + 53 = 53 + n.log2 - (m * n).log2 + (52 - n.log2) := by omega
    rw [Nat.shiftLeft_eq, Nat.mul_assoc (m * n), ← Nat.pow_add, hscale, Nat.pow_add]
    ring
  have hpos : 0 < n * 2 ^ (52 - n.log2) := Nat.mul_pos hn (Nat.two_pow_pos _)
  rw [divCore, totalExponent_whole (Nat.mul_pos hm hn) hlog,
    totalExponent_whole hn (hle.trans hlog), htarget, hshift, hmultiple, Nat.mul_div_cancel _ hpos,
    Nat.mul_mod_left]
  rfl

/-- A quotient of natural numbers without remainder is not rounded. -/
theorem div_whole (hn : 0 < n) (h : m * n < 2 ^ 53) :
    UnpackedFloat.div .binary64 (whole (m * n)) (whole n) = whole m := by
  rcases Nat.eq_zero_or_pos m with rfl | hm
  · rw [Nat.zero_mul, whole_zero, whole_of_pos hn]
    rfl
  have hpos : 0 < m * n := Nat.mul_pos hm hn
  have hle {k : ℕ} (hk : 0 < k) (hkm : k ≤ m * n) : k.log2 ≤ (m * n).log2 := by
    rw [Nat.le_log2 hpos.ne']
    exact (Nat.log2_self_le hk.ne').trans hkm
  have hlog : (m * n).log2 ≤ 52 := log2_le_of_lt h
  have hmle : m.log2 ≤ (m * n).log2 := hle hm (Nat.le_mul_of_pos_right m hn)
  have hnle : n.log2 ≤ (m * n).log2 := hle hn (Nat.le_mul_of_pos_left n hm)
  have hmul := log2_mul_le hm hn
  rw [whole_of_pos hpos, whole_of_pos hn, div_positive, divCore_whole hm hn hlog hnle]
  exact roundWithAccuracy_whole hm (hmle.trans hlog) (by omega)

/-- Packing keeps the sign. -/
theorem unpackSign_packComponents (s : Sign) (e : BitVec 11) (b : BitVec 52) :
    unpackSign (packComponents .binary64 s e b) = s.toBitVec := by
  change (s.toBitVec ++ e ++ b).extractLsb' 63 1 = s.toBitVec
  rw [BitVec.extractLsb'_append_eq_of_le (by decide),
    BitVec.extractLsb'_append_eq_of_le (by decide)]
  cases s <;> rfl

/-- A normal number is packed with its biased exponent and without its leading bit. -/
theorem pack_normal {e : ℤ} (hm : 2 ^ 52 ≤ m) (hm' : m < 2 ^ 53) (hpos : 0 < m)
    (he : -1074 ≤ e) (he' : e ≤ 971) :
    UnpackedFloat.pack .binary64 (.finite .positive m e hpos) =
      packComponents .binary64 .positive (BitVec.ofNat 11 (e + 1075).toNat) (BitVec.ofNat 52 m) := by
  have hlog : m.log2 = 52 := (Nat.log2_eq_iff hpos.ne').mpr ⟨hm, hm'⟩
  have hbiased : (e + (1023 : ℕ) + (52 : ℕ)).toNat = (e + 1075).toNat := by omega
  change (if 2 ^ 11 ≤ (e + (1023 : ℕ) + (52 : ℕ)).toNat + 1 then packedInfinity .binary64 .positive
    else if m.log2 + 1 = 53 then packComponents .binary64 .positive
      (BitVec.ofNat 11 (e + (1023 : ℕ) + (52 : ℕ)).toNat) (BitVec.ofNat 52 m)
    else packComponents .binary64 .positive 0#11 (BitVec.ofNat 52 m)) = _
  rw [hbiased, if_neg (by omega), if_pos (by rw [hlog])]

/-- A double is unpacked as a normal number unless its exponent is all ones or zero. -/
theorem unpack_normal (b : BitVec 64) (hall : @unpackExponent Format.binary64 b ≠ -1#11)
    (hnone : @unpackExponent Format.binary64 b ≠ 0#11) :
    ∃ hpos, UnpackedFloat.unpack .binary64 b =
      .finite (Sign.ofBitVec (@unpackSign Format.binary64 b))
        (1#1 ++ @unpackMantissa Format.binary64 b).toNat
        ((@unpackExponent Format.binary64 b).toNat - 1075) hpos :=
  ⟨_, (if_neg hall).trans (if_neg hnone)⟩

theorem finite_eq_finite {s t : Sign} {e f : ℤ} {hm : 0 < m} {hn : 0 < n} (hs : s = t) (h : m = n)
    (he : e = f) : UnpackedFloat.finite s m e hm = .finite t n f hn := by
  subst hs h he
  rfl

/-- Packing loses nothing of a form whose mantissa takes all its bits. -/
theorem unpack_pack_normal {e : ℤ} (hm : 2 ^ 52 ≤ m) (hm' : m < 2 ^ 53) (hpos : 0 < m)
    (he : -1074 ≤ e) (he' : e ≤ 971) :
    UnpackedFloat.unpack .binary64 (UnpackedFloat.pack .binary64 (.finite .positive m e hpos)) =
      .finite .positive m e hpos := by
  have hexponent : (BitVec.ofNat 11 (e + 1075).toNat).toNat = (e + 1075).toNat := by
    rw [BitVec.toNat_ofNat, Nat.mod_eq_of_lt (by omega)]
  have hne {b : BitVec 11} (hb : (e + 1075).toNat ≠ b.toNat) :
      @unpackExponent Format.binary64 (packComponents .binary64 .positive
        (BitVec.ofNat 11 (e + 1075).toNat) (BitVec.ofNat 52 m)) ≠ b := by
    rw [unpackExponent_packComponents]
    exact fun h => hb (by rw [← h, hexponent])
  have hmantissa : (1#1 ++ BitVec.ofNat 52 m).toNat = m := by
    rw [BitVec.toNat_append, ← Nat.shiftLeft_add_eq_or_of_lt (BitVec.isLt _)]
    change 2 ^ 52 + m % 2 ^ 52 = m
    omega
  have hall : (e + 1075).toNat ≠ (-1#11).toNat := by
    change _ ≠ 2047
    omega
  have hnone : (e + 1075).toNat ≠ (0#11).toNat := by
    change _ ≠ 0
    omega
  obtain ⟨_, hunpacked⟩ := unpack_normal _ (hne hall) (hne hnone)
  rw [pack_normal hm hm' hpos he he', hunpacked]
  refine finite_eq_finite ?_ ?_ ?_
  · rw [unpackSign_packComponents]
    rfl
  · rw [unpackMantissa_packComponents, hmantissa]
  · rw [unpackExponent_packComponents, hexponent]
    omega

/-- A whole number that fits is packed and unpacked without loss. -/
theorem unpacked_packed_whole (hn : n < 2 ^ 53) : unpacked (packed (whole n)) = whole n := by
  rcases Nat.eq_zero_or_pos n with rfl | hpos
  · rfl
  have hlog : n.log2 ≤ 52 := log2_le_of_lt hn
  have hmantissa : (n * 2 ^ (52 - n.log2)).log2 = 52 := by
    rw [log2_mul_two_pow hpos, Nat.add_sub_cancel' hlog]
  have hne : n * 2 ^ (52 - n.log2) ≠ 0 := (Nat.mul_pos hpos (Nat.two_pow_pos _)).ne'
  obtain ⟨hlow, hhigh⟩ := (Nat.log2_eq_iff hne).mp hmantissa
  rw [whole_of_pos hpos]
  exact unpack_pack_normal hlow hhigh _ (by omega) (by omega)

theorem powersOfTen_zero : Float.exactlyRepresentablePowersOfTen[0] = packed (whole 1) := rfl

/-- Below the bound, converting a natural number to a double does not round it. -/
theorem ofNat_eq_packed (hn : n < 2 ^ 53) : (Coordinate.ofNat n : Float) = packed (whole n) := by
  have hword : n.toUInt64.toFloat = packed (whole n) := by
    have hround := normalize_whole hn 0
    have hword : n.toUInt64.toNat = n := Nat.mod_eq_of_lt (hn.trans (by decide))
    change packed (UnpackedFloat.normalize .binary64 (n.toUInt64.toNat : ℤ) 0 .positive) = _
    rw [hword, ← hround]
    simp
  change Float.ofScientific n false 0 = _
  rw [Float.ofScientific, dif_pos ⟨hn, by decide⟩]
  change n.toUInt64.toFloat * Float.exactlyRepresentablePowersOfTen[0] = _
  rw [hword, powersOfTen_zero]
  change packed (UnpackedFloat.mul .binary64 (unpacked (packed (whole n)))
    (unpacked (packed (whole 1)))) = _
  rw [unpacked_packed_whole hn, unpacked_packed_whole (by decide), mul_whole_one hn]

/-- The double of a number that fits has its canonical form. -/
theorem unpacked_ofNat (hn : n < 2 ^ 53) : unpacked (Coordinate.ofNat n) = whole n := by
  rw [ofNat_eq_packed hn, unpacked_packed_whole hn]

/-- Doubles of whole numbers are added exactly as long as the sum fits. -/
theorem add_ofNat (h : m + n < 2 ^ 53) :
    (Coordinate.ofNat m + Coordinate.ofNat n : Float) = Coordinate.ofNat (m + n) := by
  change packed (UnpackedFloat.add .binary64 (unpacked (Coordinate.ofNat m))
    (unpacked (Coordinate.ofNat n))) = _
  rw [unpacked_ofNat (by omega), unpacked_ofNat (by omega), add_whole h, ofNat_eq_packed h]

/-- Doubles of whole numbers are subtracted exactly. -/
theorem sub_ofNat (hm : m < 2 ^ 53) (h : n ≤ m) :
    (Coordinate.ofNat m - Coordinate.ofNat n : Float) = Coordinate.ofNat (m - n) := by
  change packed (UnpackedFloat.sub .binary64 (unpacked (Coordinate.ofNat m))
    (unpacked (Coordinate.ofNat n))) = _
  rw [unpacked_ofNat hm, unpacked_ofNat (by omega), sub_whole hm h, ofNat_eq_packed (by omega)]

/-- A product that fits is divided exactly by its factors. -/
theorem div_ofNat (hn : 0 < n) (hlt : n < 2 ^ 53) (h : m * n < 2 ^ 53) :
    (Coordinate.ofNat (m * n) / Coordinate.ofNat n : Float) = Coordinate.ofNat m := by
  have hm : m < 2 ^ 53 := (Nat.le_mul_of_pos_right m hn).trans_lt h
  change packed (UnpackedFloat.div .binary64 (unpacked (Coordinate.ofNat (m * n)))
    (unpacked (Coordinate.ofNat n))) = _
  rw [unpacked_ofNat h, unpacked_ofNat hlt, div_whole hn h, ofNat_eq_packed hm]

/-- The double of a number that fits has that number as its value. -/
theorem value?_ofNat (hn : n < 2 ^ 53) : value? (Coordinate.ofNat n) = some (n : ℚ) := by
  rw [value?, unpacked_ofNat hn]
  rcases Nat.eq_zero_or_pos n with rfl | hpos
  · rfl
  have hlog : n.log2 ≤ 52 := log2_le_of_lt hn
  have hexponent : (n.log2 : ℤ) - 52 = -((52 - n.log2 : ℕ) : ℤ) := by omega
  have hscale : (2 : ℚ) ^ (52 - n.log2) ≠ 0 := pow_ne_zero _ two_ne_zero
  rw [whole_of_pos hpos]
  change some (((n * 2 ^ (52 - n.log2) : ℕ) : ℚ) * 2 ^ ((n.log2 : ℤ) - 52)) = _
  rw [hexponent, zpow_neg, zpow_natCast, Nat.cast_mul, Nat.cast_pow, Nat.cast_ofNat,
    mul_inv_cancel_right₀ hscale]

section Large

variable {e : ℤ}

/-- A shift to the right drops the lower places. -/
theorem mantissa_shiftRight (x : ExtendedMantissa) (k : ℕ) :
    (x >>> k).mantissa = x.mantissa / 2 ^ k := by
  change (Nat.repeat ExtendedMantissa.shiftRightOne k x).mantissa = _
  induction k with
  | zero => simp [Nat.repeat]
  | succ k ih =>
    change (Nat.repeat ExtendedMantissa.shiftRightOne k x).mantissa / 2 = _
    rw [ih, Nat.div_div_eq_div_mul, Nat.pow_succ]

/-- Rounding adds one or nothing. -/
theorem roundedMantissa_cases (x : ExtendedMantissa) :
    x.roundedMantissa = x.mantissa ∨ x.roundedMantissa = x.mantissa + 1 := by
  obtain ⟨m, roundBit, stickyBit⟩ := x
  cases roundBit with
  | false => cases stickyBit <;> exact .inl rfl
  | true =>
    cases stickyBit with
    | true => exact .inr rfl
    | false =>
      change m + m % 2 = m ∨ m + m % 2 = m + 1
      omega

/-- A mantissa of too many bits keeps those that fit. -/
theorem shiftToTargetExponent_large (hm : 52 ≤ m.log2) (he : -1074 ≤ e) :
    (shiftToTargetExponent .binary64 m e .exact).1.mantissa = m / 2 ^ (m.log2 - 52) ∧
      e ≤ (shiftToTargetExponent .binary64 m e .exact).2 := by
  have hshift : (Format.binary64.targetExponent (totalExponent m e) - e).toNat = m.log2 - 52 := by
    change (max ((m.log2 : ℤ) + 1 + e - 53) (-1074) - e).toNat = _
    omega
  rw [shiftToTargetExponent, shiftToExponent, hshift]
  exact ⟨mantissa_shiftRight _ _, by dsimp only; omega⟩

/-- Cutting a large number to 53 places leaves exactly as many. -/
theorem div_two_pow_bounds (hm : 52 ≤ m.log2) :
    2 ^ 52 ≤ m / 2 ^ (m.log2 - 52) ∧ m / 2 ^ (m.log2 - 52) < 2 ^ 53 := by
  have hne : m ≠ 0 := by
    rintro rfl
    exact absurd hm (by decide)
  have hscale (k : ℕ) : 2 ^ (52 + k) * 2 ^ (m.log2 - 52) = 2 ^ (m.log2 + k) := by
    rw [← Nat.pow_add]
    congr 1
    omega
  rw [Nat.le_div_iff_mul_le (Nat.two_pow_pos _), Nat.div_lt_iff_lt_mul (Nat.two_pow_pos _)]
  exact ⟨(hscale 0).trans_le (Nat.log2_self_le hne), Nat.lt_log2_self.trans_eq (hscale 1).symm⟩

/-- A number with a mantissa of too many bits is rounded to one whose mantissa takes all its bits.
Rounding up may carry into a bit too many, which the second shift takes away. -/
theorem exists_roundWithAccuracy_large (hm : 52 ≤ m.log2) (he : -1074 ≤ e) :
    ∃ n f hn, roundWithAccuracy .binary64 .positive m e .exact = .finite .positive n f hn ∧
      2 ^ 52 ≤ n ∧ n < 2 ^ 53 ∧ -1074 ≤ f := by
  obtain ⟨hcut, hcut'⟩ := shiftToTargetExponent_large hm he
  obtain ⟨hlow, hhigh⟩ := div_two_pow_bounds hm
  rw [← hcut] at hlow hhigh
  rw [roundWithAccuracy]
  generalize shiftToTargetExponent .binary64 m e .exact = cut at hcut hcut' hlow hhigh
  obtain ⟨kept, f⟩ := cut
  dsimp only at hcut' hlow hhigh ⊢
  have hlog : 52 ≤ kept.roundedMantissa.log2 := by
    rw [Nat.le_log2 (by rcases roundedMantissa_cases kept with h | h <;> omega)]
    rcases roundedMantissa_cases kept with h | h <;> omega
  obtain ⟨hfinal, hfinal'⟩ := shiftToTargetExponent_large hlog (he.trans hcut')
  obtain ⟨hlow', hhigh'⟩ := div_two_pow_bounds hlog
  rw [← hfinal] at hlow' hhigh'
  generalize shiftToTargetExponent .binary64 kept.roundedMantissa f .exact = final
    at hfinal hfinal' hlow' hhigh'
  obtain ⟨kept', f'⟩ := final
  dsimp only at hfinal' hlow' hhigh' ⊢
  have hpos : kept'.mantissa ≠ 0 := by omega
  exact ⟨_, _, _, dif_neg hpos, hlow', hhigh', he.trans (hcut'.trans hfinal')⟩

/-- A number beyond the largest exponent is packed as infinity. -/
theorem unpack_pack_overflow (hm : 0 < m) (he : 971 < e) :
    UnpackedFloat.unpack .binary64 (UnpackedFloat.pack .binary64 (.finite .positive m e hm)) =
      .infinity .positive := by
  have hpack : UnpackedFloat.pack .binary64 (.finite .positive m e hm) =
      packedInfinity .binary64 .positive := by
    change (if 2 ^ 11 ≤ (e + (1023 : ℕ) + (52 : ℕ)).toNat + 1 then packedInfinity .binary64 .positive
      else _) = _
    exact if_pos (by omega)
  rw [hpack]
  rfl

end Large

/-- A number that is converted to a double is not rounded to zero. -/
theorem unpacked_ofNat_cases (hn : 0 < n) :
    (∃ m e hm, unpacked (Coordinate.ofNat n) = .finite .positive m e hm) ∨
      unpacked (Coordinate.ofNat n) = .infinity .positive := by
  by_cases hlt : n < 2 ^ 53
  · rw [unpacked_ofNat hlt, whole_of_pos hn]
    exact .inl ⟨_, _, _, rfl⟩
  have hlog : 52 ≤ (n <<< 53 * 10 ^ 0).log2 := by
    rw [Nat.pow_zero, Nat.mul_one, Nat.shiftLeft_eq, log2_mul_two_pow hn]
    omega
  obtain ⟨m, e, hm, hround, hlow, hhigh, he⟩ :=
    exists_roundWithAccuracy_large hlog (e := -53 + 0) (by decide)
  have hpacked : (Coordinate.ofNat n : Float) = packed (.finite .positive m e hm) := by
    change Float.ofScientific n false 0 = _
    rw [Float.ofScientific, dif_neg fun h => hlt h.1, ← hround]
    change packed (UnpackedFloat.ofScientific .binary64 n 0) = _
    rw [UnpackedFloat.ofScientific, dif_neg hn.ne', if_neg (by decide), if_neg, if_pos le_rfl]
    · rfl
    · change ¬ (0 < -((2 : ℤ) ^ 11 + n.log2))
      omega
  rw [hpacked]
  rcases le_or_gt e 971 with he' | he'
  · exact .inl ⟨m, e, hm, unpack_pack_normal hlow hhigh hm he he'⟩
  · exact .inr (unpack_pack_overflow hm he')

/-- The double of a positive number is not zero, however large the number. -/
theorem ofNat_beq_zero (hn : 0 < n) : ((Coordinate.ofNat n : Float) == Coordinate.zero) = false := by
  have hzero : unpacked (Coordinate.zero : Float) = .zero .positive := rfl
  rw [← Bool.not_eq_true, beq_iff_compare, hzero]
  rcases unpacked_ofNat_cases hn with ⟨m, e, hm, hunpacked⟩ | hunpacked
  · rw [hunpacked]
    exact fun h => Ordering.noConfusion (Option.some.inj h)
  · rw [hunpacked]
    exact fun h => Ordering.noConfusion (Option.some.inj h)

/-- Zero divided by any positive number is zero. -/
theorem zero_div_ofNat (hn : 0 < n) :
    (Coordinate.ofNat 0 / Coordinate.ofNat n : Float) = Coordinate.ofNat 0 := by
  have hzero : unpacked (Coordinate.ofNat 0 : Float) = .zero .positive := rfl
  change packed (UnpackedFloat.div .binary64 (unpacked (Coordinate.ofNat 0))
    (unpacked (Coordinate.ofNat n))) = _
  rw [hzero]
  rcases unpacked_ofNat_cases hn with ⟨m, e, hm, hunpacked⟩ | hunpacked
  · rw [hunpacked]
    rfl
  · rw [hunpacked]
    rfl

/-- A quotient without remainder is exact if what is divided fits, whatever it is divided by. -/
theorem mul_ofNat_div_ofNat (hn : 0 < n) (h : m * n < 2 ^ 53) :
    (Coordinate.ofNat (m * n) / Coordinate.ofNat n : Float) = Coordinate.ofNat m := by
  rcases Nat.eq_zero_or_pos m with rfl | hm
  · rw [Nat.zero_mul]
    exact zero_div_ofNat hn
  · exact div_ofNat hn ((Nat.le_mul_of_pos_left n hm).trans_lt h) h

end SpatialSql.Decimal
