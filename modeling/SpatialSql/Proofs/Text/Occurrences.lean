import SpatialSql.Text.Search
import Mathlib.Order.Bounds.Basic

/-!
# Occurrences found from the left

A pattern may occur at positions that overlap. A scan from the left takes the first occurrence it
comes to and goes on behind it, so the places it finds do not overlap, and there is one list of them
only. These are the places where a pattern is replaced: a text changes its length by the difference
between pattern and replacement, once for each of them.
-/

namespace SpatialSql.Text

variable {pattern text : List Char} {start i : ℕ} {places places' : List ℕ}

/-- A pattern stands in a text from a position on. -/
def OccursAt (pattern text : List Char) (i : ℕ) : Prop := pattern <+: text.drop i

instance (pattern text : List Char) (i : ℕ) : Decidable (OccursAt pattern text i) :=
  inferInstanceAs (Decidable (pattern <+: text.drop i))

/-- The places a scan from a position on finds: each time the first occurrence there is, and then
those of the scan that goes on behind it. -/
inductive Scan (pattern text : List Char) : ℕ → List ℕ → Prop
  | done {start : ℕ} (h : ∀ i, start ≤ i → ¬ OccursAt pattern text i) : Scan pattern text start []
  | found {start i : ℕ} {places : List ℕ}
      (hi : IsLeast {i | start ≤ i ∧ OccursAt pattern text i} i)
      (h : Scan pattern text (i + pattern.length) places) : Scan pattern text start (i :: places)

/-- An occurrence lies within the text. -/
theorem OccursAt.add_length_le (h : OccursAt pattern text i) (hne : pattern ≠ []) :
    i + pattern.length ≤ text.length := by
  have hpos := List.length_pos_iff.mpr hne
  have hle := h.length_le
  rw [List.length_drop] at hle
  omega

/-- A pattern occurs where its first character does and the others follow. -/
theorem occursAt_cons_iff {first c : Char} {others rest : List Char}
    (hrest : text.drop start = c :: rest) :
    OccursAt (first :: others) text start ↔ c = first ∧ others.isPrefixOf rest = true := by
  rw [OccursAt, hrest, List.cons_prefix_cons, eq_comm, List.isPrefixOf_iff_prefix]

namespace Scan

/-- A text is scanned in one way. -/
theorem unique (h : Scan pattern text start places) (h' : Scan pattern text start places') :
    places = places' := by
  induction h generalizing places' with
  | done hnone =>
    cases h' with
    | done => rfl
    | found hi => exact absurd hi.1.2 (hnone _ hi.1.1)
  | found hi _ ih =>
    cases h' with
    | done hnone => exact absurd hi.1.2 (hnone _ hi.1.1)
    | found hi' h' =>
      obtain rfl := hi.unique hi'
      rw [ih h']

/-- A scan finds an occurrence where it begins. -/
theorem here (h : Scan pattern text (start + pattern.length) places)
    (hi : OccursAt pattern text start) : Scan pattern text start (start :: places) :=
  .found ⟨⟨le_rfl, hi⟩, fun _ hj => hj.1⟩ h

/-- A scan passes over a position where the pattern does not occur. -/
theorem pass (h : Scan pattern text (start + 1) places) (hno : ¬ OccursAt pattern text start) :
    Scan pattern text start places := by
  have hnext {i : ℕ} (hle : start ≤ i) (hi : OccursAt pattern text i) : start + 1 ≤ i := by
    refine Nat.lt_of_le_of_ne hle ?_
    rintro rfl
    exact hno hi
  cases h with
  | done hnone => exact .done fun i hle hi => hnone i (hnext hle hi) hi
  | found hi h =>
    refine .found ⟨⟨Nat.le_of_succ_le hi.1.1, hi.1.2⟩, ?_⟩ h
    exact fun j hj => hi.2 ⟨hnext hj.1 hj.2, hj.2⟩

/-- Behind the last position where the pattern fits, a scan finds nothing. -/
theorem beyond (hne : pattern ≠ []) (hstart : text.length < start + pattern.length) :
    Scan pattern text start [] := by
  refine .done fun i hle hi => ?_
  have hfits := hi.add_length_le hne
  omega

end Scan

/-- Replacing a pattern in the rest of a text takes away its length, and adds that of the replacement,
for each place that a scan of the rest finds. -/
theorem exists_scan_replaceFrom {first : Char} {others : List Char} (replacement : List Char)
    {rest : List Char} (hrest : text.drop start = rest) :
    ∃ places, Scan (first :: others) text start places ∧
      (replaceFrom first others replacement rest).length +
          places.length * (first :: others).length =
        rest.length + places.length * replacement.length := by
  have hne : first :: others ≠ [] := List.cons_ne_nil first others
  -- The cases are those of `replaceFrom`, which goes on behind an occurrence, else by one character.
  induction rest using replaceFrom.induct first others generalizing start with
  | case1 =>
    have hend : text.length < start + (first :: others).length :=
      (List.drop_eq_nil_iff.mp hrest).trans_lt (Nat.lt_add_of_pos_right (Nat.succ_pos _))
    exact ⟨[], .beyond hne hend, by simp [replaceFrom]⟩
  | case2 c rest hpattern ih =>
    have hbehind : text.drop (start + (first :: others).length) = rest.drop others.length := by
      rw [← List.drop_drop, hrest, List.length_cons, List.drop_succ_cons]
    have hfits : others.length ≤ rest.length :=
      (List.isPrefixOf_iff_prefix.mp hpattern.2).length_le
    obtain ⟨places, hscan, hlength⟩ := ih hbehind
    refine ⟨start :: places, hscan.here ((occursAt_cons_iff hrest).mpr hpattern), ?_⟩
    rw [replaceFrom, if_pos hpattern]
    simp only [List.length_append, List.length_cons, List.length_drop, Nat.succ_mul] at hlength ⊢
    omega
  | case3 c rest hpattern ih =>
    have hnext : text.drop (start + 1) = rest := by
      rw [← List.drop_drop, hrest, List.drop_succ_cons, List.drop_zero]
    obtain ⟨places, hscan, hlength⟩ := ih hnext
    refine ⟨places, hscan.pass (mt (occursAt_cons_iff hrest).mp hpattern), ?_⟩
    rw [replaceFrom, if_neg hpattern]
    simp only [List.length_cons] at hlength ⊢
    omega

/-- Every text has a scan for a pattern that is not empty. -/
theorem exists_scan (hne : pattern ≠ []) (text : List Char) : ∃ places, Scan pattern text 0 places := by
  obtain ⟨first, others, rfl⟩ := List.exists_cons_of_ne_nil hne
  obtain ⟨places, hscan, -⟩ := exists_scan_replaceFrom [] (List.drop_zero (l := text))
  exact ⟨places, hscan⟩

/-- Replacing a pattern takes away its length, and adds that of the replacement, for each place that a
scan of the text finds. -/
theorem Scan.length_replace (h : Scan pattern text 0 places) (hne : pattern ≠ [])
    (replacement : List Char) :
    (replace pattern replacement text).length + places.length * pattern.length =
      text.length + places.length * replacement.length := by
  obtain ⟨first, others, rfl⟩ := List.exists_cons_of_ne_nil hne
  obtain ⟨places', hscan, hlength⟩ := exists_scan_replaceFrom replacement List.drop_zero
  rw [h.unique hscan]
  exact hlength

end SpatialSql.Text
