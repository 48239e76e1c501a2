import SpatialSql.Expr.Text
import SpatialSql.Proofs.Decimal.Whole
import SpatialSql.Proofs.Planar.Exact
import SpatialSql.Proofs.Text.Occurrences

/-!
# Counting the occurrences of a text

The number of occurrences is computed from lengths: a text loses the length of the needle at each
place where the needle is removed. These are the places that a scan from the left finds, so the
length lost is a multiple of that of the needle, and dividing leaves no remainder. Exact numbers
give the count of every text, and doubles that of every text whose length they hold.
-/

namespace SpatialSql.Expr

open Coordinate

/-- The text that is left when the occurrences of a needle are removed. -/
def removed (needle s : String) : String :=
  String.ofList (Text.replace needle.toList [] s.toList)

variable {s needle : String} {places : List ℕ}

/-- A text loses the length of the needle at each place that a scan finds. -/
theorem length_removed (h : Text.Scan needle.toList s.toList 0 places) (hne : needle ≠ "") :
    (removed needle s).length + places.length * needle.length = s.length := by
  have hlength := h.length_replace (mt String.toList_eq_nil_iff.mp hne) []
  rwa [String.length_toList, String.length_toList, List.length_nil, Nat.mul_zero, Nat.add_zero,
    ← String.length_ofList] at hlength

theorem length_needle_pos (hne : needle ≠ "") : 0 < needle.length :=
  Nat.pos_of_ne_zero (mt String.length_eq_zero_iff.mp hne)

/-- Replacing by nothing removes the occurrences. -/
theorem replace_text_empty {α : Type} (needle s : String) :
    (text s : Expr α).replace needle "" = text (removed needle s) := rfl

section Folding

variable {α : Type} [Coordinate α]

theorem length_text (s : String) : (text s : Expr α).length = number (ofNat s.length) := rfl

theorem minus_number (x y : α) : minus (number x) (number y) = number (x - y) := rfl

/-- A quotient of literals is computed where the divisor is not zero. -/
theorem dividedBy_number {x y : α} (hy : (y == zero) = false) :
    dividedBy (number x) (number y) = number (x / y) := by
  simp [dividedBy, arithmetic, number, number?, hy]

/-- The count in a literal text is computed at once, unless the length of the needle counts as zero. -/
theorem countOf_text (hne : needle ≠ "") (hzero : ((ofNat needle.length : α) == zero) = false) :
    (text s : Expr α).countOf needle =
      number ((ofNat s.length - ofNat (removed needle s).length) / ofNat needle.length) := by
  have hmax : max needle.length 1 = needle.length := max_eq_left (length_needle_pos hne)
  rw [countOf, hmax, replace_text_empty, length_text, length_text, minus_number,
    dividedBy_number hzero]

/-- The count comes out where lengths are subtracted and divided exactly. -/
theorem countOf_text_of_scan (h : Text.Scan needle.toList s.toList 0 places) (hne : needle ≠ "")
    (hzero : ((ofNat needle.length : α) == zero) = false)
    (hsub : (ofNat s.length - ofNat (removed needle s).length : α) =
      ofNat (s.length - (removed needle s).length))
    (hdiv : (ofNat (places.length * needle.length) / ofNat needle.length : α) =
      ofNat places.length) :
    (text s : Expr α).countOf needle = number (ofNat places.length) := by
  have hlost : s.length - (removed needle s).length = places.length * needle.length :=
    Nat.sub_eq_of_eq_add' (length_removed h hne).symm
  rw [countOf_text hne hzero, hsub, hlost, hdiv]

end Folding

/-- In exact numbers the count is the number of places. -/
theorem countOf_text_exact (h : Text.Scan needle.toList s.toList 0 places) (hne : needle ≠ "") :
    (text s : Expr ℚ).countOf needle = number (places.length : ℚ) := by
  have hofNat (n : ℕ) : (ofNat n : ℚ) = n := Int.cast_natCast n
  have hpos : (needle.length : ℚ) ≠ 0 := Nat.cast_ne_zero.mpr (length_needle_pos hne).ne'
  have hle : (removed needle s).length ≤ s.length := Nat.le.intro (length_removed h hne)
  rw [← hofNat places.length]
  refine countOf_text_of_scan h hne ?_ ?_ ?_
  · rw [hofNat, zero_exact]
    exact beq_false_of_ne hpos
  · rw [hofNat, hofNat, hofNat, Nat.cast_sub hle]
  · rw [hofNat, hofNat, hofNat, Nat.cast_mul, mul_div_cancel_right₀ _ hpos]

/-- In doubles it is as long as the text has fewer than `2 ^ 53` characters. -/
theorem countOf_text_double (h : Text.Scan needle.toList s.toList 0 places) (hne : needle ≠ "")
    (hs : s.length < 2 ^ 53) : (text s : Expr Float).countOf needle = number (ofNat places.length) := by
  have hpos := length_needle_pos hne
  have hlength := length_removed h hne
  have hle : (removed needle s).length ≤ s.length := by omega
  have hlost : places.length * needle.length < 2 ^ 53 := by omega
  exact countOf_text_of_scan h hne (Decimal.ofNat_beq_zero hpos) (Decimal.sub_ofNat hs hle)
    (Decimal.mul_ofNat_div_ofNat hpos hlost)

/-- Counting a needle counts the places where it is found. There is one list of places that a scan of
a text from the left finds, going on behind each of them. Without the needle the text is shorter by its
length for each place, so the division leaves no remainder. The count folds to the number of places: in
exact numbers for every text; in doubles it folds to a literal for every text, and to that number for
every text of less than `2 ^ 53` characters. -/
theorem countOf_counts_places (hne : needle ≠ "") (s : String) :
    ∃ places, (∀ found, Text.Scan needle.toList s.toList 0 found ↔ found = places) ∧
      (removed needle s).length + places.length * needle.length = s.length ∧
      (text s : Expr ℚ).countOf needle = number (places.length : ℚ) ∧
      ∃ x, (text s : Expr Float).countOf needle = number x ∧
        (s.length < 2 ^ 53 →
          x = ofNat places.length ∧ Decimal.value? x = some (places.length : ℚ)) := by
  obtain ⟨places, hscan⟩ := Text.exists_scan (mt String.toList_eq_nil_iff.mp hne) s.toList
  have hlength := length_removed hscan hne
  have hpos := length_needle_pos hne
  have hfold := countOf_text (s := s) hne (Decimal.ofNat_beq_zero hpos)
  refine ⟨places, fun found => ⟨fun hfound => hfound.unique hscan, fun h => h ▸ hscan⟩, hlength,
    countOf_text_exact hscan hne, _, hfold, fun hs => ?_⟩
  have hx := Literal.number.inj (literal.inj (hfold.symm.trans (countOf_text_double hscan hne hs)))
  have hcount : places.length < 2 ^ 53 := by
    have hle := Nat.le_mul_of_pos_right places.length hpos
    omega
  rw [hx, Decimal.value?_ofNat hcount]
  exact ⟨rfl, rfl⟩

/-- Of three occurrences that overlap, the first and the last are found and counted. -/
theorem countOf_counts_places_overlapping :
    "áñá" ≠ "" ∧ Text.Scan "áñá".toList "áñáñáñá".toList 0 [0, 4] ∧
    (text "áñáñáñá" : Expr Float).countOf "áñá" = number (ofNat 2) := by
  have hne : "áñá" ≠ "" := by decide
  have hscan : Text.Scan "áñá".toList "áñáñáñá".toList 0 [0, 4] := by
    refine .here (.pass (.here (.beyond ?_ ?_) ?_) ?_) ?_ <;> decide +kernel
  obtain ⟨places, hplaces, -, -, x, hcount, hx⟩ := countOf_counts_places hne "áñáñáñá"
  obtain rfl := (hplaces [0, 4]).mp hscan
  rw [hcount, (hx (by decide +kernel)).1]
  exact ⟨hne, hscan, rfl⟩

end SpatialSql.Expr
