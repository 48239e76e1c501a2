import SpatialSql.Coordinate

/-!
# Characters of numbers

A number that is written out in full consists of digits and a point, behind a sign or not;
the special values have names. No character of a number is a blank, a bracket or a comma.
-/

namespace SpatialSql.Decimal

/-- A character of a number that is written out in full. -/
def isPlain (c : Char) : Bool := c.isDigit || c == '.'

/-- A point is put among digits, and zeros beside them. -/
theorem isPlain_of_mem_pointed {digits : List Char} {point : Int} {c : Char}
    (hd : ∀ c ∈ digits, isPlain c = true) (hc : c ∈ pointed false digits point) :
    isPlain c = true := by
  have hzero (n : Nat) (h : c ∈ zeros n) : isPlain c = true := by
    rw [(List.mem_replicate.mp h).2]
    decide
  unfold pointed at hc
  split at hc
  · simp only [List.cons_append, List.mem_cons, List.mem_append] at hc
    rcases hc with rfl | rfl | h | h
    · decide
    · decide
    · exact hzero _ h
    · exact hd c h
  · split at hc
    · simp only [Bool.false_eq_true, if_false, List.append_nil, List.mem_append] at hc
      exact hc.elim (hd c) (hzero _)
    · simp only [List.mem_append, List.mem_cons] at hc
      rcases hc with h | rfl | h
      · exact hd c (List.mem_of_mem_take h)
      · decide
      · exact hd c (List.mem_of_mem_drop h)

/-- A magnitude is written out in full. -/
theorem isPlain_of_mem_magnitudeText {d : Dyadic} {c : Char}
    (hc : c ∈ plain.magnitudeText d) : isPlain c = true := by
  simp only [Layout.magnitudeText, plain, if_true] at hc
  refine isPlain_of_mem_pointed (fun c hd => ?_) hc
  simp [isPlain, Nat.isDigit_of_mem_toDigits (by decide) (by decide) hd]

/-- There is at least one digit. -/
theorem pointed_ne_nil {digits : List Char} (hd : digits ≠ []) (wholeMark : Bool) (point : Int) :
    pointed wholeMark digits point ≠ [] := by
  unfold pointed
  split
  · simp
  · split
    · simp [hd]
    · simp

/-- A magnitude is not empty. -/
theorem magnitudeText_ne_nil (d : Dyadic) : plain.magnitudeText d ≠ [] := by
  simp only [Layout.magnitudeText, plain, if_true]
  exact pointed_ne_nil (Nat.toDigits_ne_nil) false _

/-- A character of the text of a double: of a number that is written out in full, of its sign or of the
name of a special value. -/
def isSpelling (c : Char) : Bool := isPlain c || "-infNa".toList.contains c

/-- The characters of numbers lie behind brackets and commas. -/
theorem toNat_of_isSpelling {c : Char} (h : isSpelling c = true) :
    45 ≤ c.toNat ∧ c.toNat ≤ 110 := by
  change (((decide ('0'.val ≤ c.val) && decide (c.val ≤ '9'.val)) || c == '.') ||
    ['-', 'i', 'n', 'f', 'N', 'a'].contains c) = true at h
  simp only [Bool.or_eq_true, Bool.and_eq_true, decide_eq_true_eq, beq_iff_eq,
    UInt32.le_iff_toNat_le, List.contains_eq_mem, List.mem_cons, List.not_mem_nil, or_false] at h
  rcases h with (h | rfl) | rfl | rfl | rfl | rfl | rfl | rfl
  · exact ⟨Nat.le_trans (by decide) h.1, Nat.le_trans h.2 (by decide)⟩
  all_goals decide

/-- A finite double is written with plain characters, and a minus in front of some. -/
theorem dyadicText_spec (d : Dyadic) :
    plain.dyadicText d ≠ [] ∧ ∀ c ∈ plain.dyadicText d, c = '-' ∨ isPlain c = true := by
  have hsign : ∀ c ∈ (if d.negative then ['-'] else []), c = '-' := by
    cases d.negative <;> simp
  simp only [Layout.dyadicText]
  generalize (if d.negative then ['-'] else []) = sign at hsign
  split
  · refine ⟨by simp [pointed_ne_nil (List.cons_ne_nil _ _)], fun c hc => ?_⟩
    refine (List.mem_append.mp hc).imp (hsign c) fun hc => isPlain_of_mem_pointed (fun e he => ?_) hc
    rw [List.mem_singleton.mp he]
    decide
  · refine ⟨by simp [magnitudeText_ne_nil d], fun c hc => ?_⟩
    exact (List.mem_append.mp hc).imp (hsign c) isPlain_of_mem_magnitudeText

/-- The text of a double is not empty and consists of the characters of numbers. -/
theorem coordinateText_spec (x : Float) :
    (coordinateText x).toList ≠ [] ∧ ∀ c ∈ (coordinateText x).toList, isSpelling c = true := by
  have hname {text : List Char} (h : text.all isSpelling = true) : ∀ c ∈ text, isSpelling c = true :=
    List.all_eq_true.mp h
  unfold coordinateText
  split
  · exact ⟨by decide, hname (by decide)⟩
  · unfold Layout.text
    split
    · next d _ =>
      rw [String.toList_ofList]
      obtain ⟨hne, hc⟩ := dyadicText_spec d
      refine ⟨hne, fun c hmem => ?_⟩
      rcases hc c hmem with rfl | hplain
      · decide
      · rw [isSpelling, hplain, Bool.true_or]
    · exact ⟨by decide, hname (by decide)⟩
    · exact ⟨by decide, hname (by decide)⟩
    · exact ⟨by decide, hname (by decide)⟩

end SpatialSql.Decimal
