import SpatialSql.Emulation.Basic
import SpatialSql.Expr.Weight

/-!
# Formulas are lighter than the nodes they replace

Each formula is bounded by the weight of its operands plus its own depth, and the
depth stays below the rank of the operator. The main statement is
`emulate?_weight_lt`, on which compilation recurses.
-/

namespace SpatialSql.Emulation

open SpatialSql.Expr

variable {α : Type} [Numeral α] {a b g p q : Expr α} {k n : Nat}

/-- The expression an emulation consists of. -/
def Emulated.expr : Emulated α → Expr α
  | .value e => e
  | .wkt _ text => text

/-- A coordinate that is known is no heavier than the point. -/
theorem weight_knownCoordinate? {axis : Axis} {e : Expr α} (h : knownCoordinate? axis p = some e) :
    e.weight ≤ p.weight := by
  unfold knownCoordinate? at h
  split at h
  · cases h; simp
  · cases h; simp
  · obtain ⟨members, hm, he⟩ := Option.bind_eq_some_iff.mp h
    have := heaviest_of_spatialOperands? hm
    have := weight_le_heaviest (List.mem_of_getElem? he)
    omega

/-- A coordinate is four levels above the point, since its accessor has rank three. -/
theorem weight_coordinate_le {axis : Axis} (h : p.weight + (k + 4) ≤ n) :
    (coordinate axis p).weight + k ≤ n := by
  unfold coordinate
  cases hk : knownCoordinate? axis p with
  | some e =>
    have := weight_knownCoordinate? hk
    simp only [Option.getD_some]
    omega
  | none =>
    rw [Option.getD_none, weight_spatial₁]
    cases axis <;> simp only [Axis.getter, SpatialOp.rank] <;> omega

/-- Two numbers are joined at a depth of two. -/
theorem weight_pairText_le (hp : p.weight + (k + 2) ≤ n) (hq : q.weight + (k + 2) ≤ n) :
    (pairText p q).weight + k ≤ n := by
  unfold pairText
  refine weight_concatAll_le (fun e he => ?_) (by omega)
  simp only [List.mem_cons, List.not_mem_nil, or_false] at he
  rcases he with rfl | rfl | rfl
  · exact weight_toText_le hp
  · simp; omega
  · exact weight_toText_le hq

/-- The coordinates of a point are reached and joined at a depth of six. -/
theorem weight_coordinatesText_le (h : p.weight + (k + 6) ≤ n) :
    (coordinatesText p).weight + k ≤ n :=
  weight_pairText_le (weight_coordinate_le h) (weight_coordinate_le h)

/-- The text of a point adds one level to that of its coordinates. -/
theorem weight_pointText_le (hp : p.weight + (k + 3) ≤ n) (hq : q.weight + (k + 3) ≤ n) :
    (pointText p q).weight + k ≤ n := by
  unfold pointText
  refine weight_concatAll_le (fun e he => ?_) (by omega)
  simp only [List.mem_cons, List.not_mem_nil, or_false] at he
  rcases he with rfl | rfl | rfl
  · simp; omega
  · exact weight_pairText_le hp hq
  · simp; omega

omit [Numeral α] in
/-- Between the items stand only commas. -/
theorem mem_joined {e : Expr α} {items : List (Expr α)} (h : e ∈ joined items) :
    e ∈ items ∨ e = text ", " := by
  fun_induction joined items with
  | case1 => simp at h
  | case2 item => exact .inl h
  | case3 item rest _ ih =>
    simp only [List.mem_cons] at h ⊢
    rcases h with rfl | rfl | h
    · exact .inl (.inl rfl)
    · exact .inr rfl
    · exact (ih h).imp .inr id

/-- Opening and closing words stand beside the parts, not above them. -/
theorem weight_wrapped_le {parts : List (Expr α)} {opening closing : String}
    (h : ∀ e ∈ parts, e.weight + (k + 1) ≤ n) (hn : k + 1 ≤ n) :
    (wrapped opening parts closing).weight + k ≤ n := by
  unfold wrapped
  refine weight_concatAll_le (fun e he => ?_) hn
  simp only [List.cons_append, List.mem_cons, List.mem_append, List.not_mem_nil, or_false] at he
  rcases he with rfl | he | rfl
  · simpa using hn
  · exact h e he
  · simpa using hn

/-- Commas between items add no weight. -/
theorem weight_joined_le {items : List (Expr α)} (h : ∀ e ∈ items, e.weight + k ≤ n)
    (hn : k ≤ n) : ∀ e ∈ joined items, e.weight + k ≤ n := by
  intro e he
  rcases mem_joined he with he | rfl
  · exact h e he
  · simpa using hn

/-- Two points are compared coordinate by coordinate at a depth of six. -/
theorem weight_pointsEqual_le (hp : p.weight + (k + 6) ≤ n) (hq : q.weight + (k + 6) ≤ n) :
    (pointsEqual p q).weight + k ≤ n := by
  unfold pointsEqual
  apply_rules [weight_and_le, weight_isEqual_le, weight_coordinate_le]

/-- The closure of a ring compares its ends and may write the first one again. -/
theorem weight_ringClosure_le (hp : p.weight + (k + 8) ≤ n) (hq : q.weight + (k + 8) ≤ n) :
    (ringClosure p q).weight + k ≤ n := by
  unfold ringClosure
  split
  · simp; omega
  · refine weight_caseWhen_le (weight_pointsEqual_le (by omega) (by omega)) (by simp; omega)
      (weight_concat_le (by simp; omega) (weight_coordinatesText_le (by omega)))

/-- The text of a construction is nine levels above its members, however many these are. -/
theorem weight_constructText_le {kind : GeometryKind} {members : List (Expr α)}
    (h : ∀ m ∈ members, m.weight + (k + 9) ≤ n) (hn : k + 9 ≤ n) :
    (constructText kind members).weight + k ≤ n := by
  have coordinates : ∀ e ∈ members.map coordinatesText, e.weight + (k + 1) ≤ n := by
    intro e he
    obtain ⟨m, hm, rfl⟩ := List.mem_map.mp he
    have := h m hm
    exact weight_coordinatesText_le (by omega)
  have member (i : Nat) : (members[i]?.getD (.absent .number)).weight + (k + 3) ≤ n := by
    cases hm : members[i]? with
    | none => simp; omega
    | some m =>
      have := h m (List.mem_of_getElem? hm)
      simp only [Option.getD_some]
      omega
  unfold constructText
  split
  · exact weight_pointText_le (member 0) (member 1)
  · exact weight_wrapped_le (weight_joined_le coordinates (by omega)) (by omega)
  · exact weight_wrapped_le (weight_joined_le coordinates (by omega)) (by omega)
  · refine weight_wrapped_le (weight_joined_le (fun e he => ?_) (by omega)) (by omega)
    obtain ⟨m, hm, rfl⟩ := List.mem_map.mp he
    refine weight_wrapped_le (fun e he => ?_) (by omega)
    have := h m hm
    rw [List.mem_singleton.mp he]
    exact weight_coordinatesText_le (by omega)
  · refine weight_wrapped_le (fun e he => ?_) (by omega)
    rcases List.mem_append.mp he with he | he
    · exact weight_joined_le coordinates (by omega) e he
    · split at he
      · rename_i first last hf hl
        have := h first (List.mem_of_mem_head? hf)
        have := h last (List.mem_of_getLast? hl)
        rw [List.mem_singleton.mp he]
        exact weight_ringClosure_le (by omega) (by omega)
      · simp at he

/-- The text of a rectangle repeats its four sides at a depth of three. -/
theorem weight_rectangleText_le {c d : Expr α} (ha : a.weight + (k + 3) ≤ n)
    (hb : b.weight + (k + 3) ≤ n) (hc : c.weight + (k + 3) ≤ n) (hd : d.weight + (k + 3) ≤ n) :
    (rectangleText a b c d).weight + k ≤ n := by
  unfold rectangleText
  refine weight_wrapped_le (weight_joined_le (fun e he => ?_) (by omega)) (by omega)
  simp only [List.mem_cons, List.not_mem_nil, or_false] at he
  rcases he with rfl | rfl | rfl | rfl | rfl <;> exact weight_pairText_le (by omega) (by omega)

/-- A text that is known without an accessor is no heavier than the geometry. -/
theorem weight_knownText? {kind : GeometryKind} {e : Expr α} (h : knownText? kind g = some e) :
    e.weight ≤ g.weight := by
  unfold knownText? at h
  split at h
  · cases h; simp
  · obtain ⟨_, _, rfl⟩ := Option.map_eq_some_iff.mp h
    simp
  · cases h
    rename_i kind' valueKind shape members
    rw [weight, topWeight, SpatialOp.rank]
    refine Nat.le_trans (weight_constructText_le (k := 0) (n := 9 + heaviest members) ?_ ?_) ?_
    · intro m hm
      have := weight_le_heaviest hm
      omega
    · omega
    · omega
  · contradiction

/-- The text of a geometry is two levels above it, since its accessor has rank one. -/
theorem weight_textOf_le {kind : GeometryKind} (h : g.weight + (k + 2) ≤ n) :
    (textOf kind g).weight + k ≤ n := by
  unfold textOf
  cases hk : knownText? kind g with
  | some e =>
    have := weight_knownText? hk
    simp only [Option.getD_some]
    omega
  | none =>
    rw [Option.getD_none, weight_spatial₁, SpatialOp.rank]
    omega

/-- All four coordinates of two ends are light. -/
def EndsLight (k n : Nat) (ends : Ends α) : Prop :=
  ends.x₁.weight + k ≤ n ∧ ends.y₁.weight + k ≤ n ∧ ends.x₂.weight + k ≤ n ∧ ends.y₂.weight + k ≤ n

/-- The ends of a segment are light, whichever way they are found. -/
theorem endsLight_segmentEnds (h : g.weight + (k + 3) ≤ n) : EndsLight k n (segmentEnds g) := by
  unfold segmentEnds
  split
  · simp only [EndsLight, weight_number]
    omega
  · rename_i start stop _ hm
    have hw := heaviest_of_spatialOperands? hm
    simp only [heaviest_cons, SpatialOp.rank] at hw
    refine ⟨?_, ?_, ?_, ?_⟩ <;> exact weight_coordinate_le (by omega)
  · refine ⟨?_, ?_, ?_, ?_⟩ <;> exact weight_ordinate_le (weight_textOf_le h)

/-- The cross product of three points has a depth of three. -/
theorem weight_orientation_le {ax ay bx bY cx cy : Expr α} (h₁ : ax.weight + (k + 3) ≤ n)
    (h₂ : ay.weight + (k + 3) ≤ n) (h₃ : bx.weight + (k + 3) ≤ n) (h₄ : bY.weight + (k + 3) ≤ n)
    (h₅ : cx.weight + (k + 3) ≤ n) (h₆ : cy.weight + (k + 3) ≤ n) :
    (orientation ax ay bx bY cx cy).weight + k ≤ n := by
  unfold orientation
  apply_rules [weight_minus_le, weight_times_le]

/-- The product of two orientations is compared at a depth of two. -/
theorem weight_straddles_le (ha : a.weight + (k + 2) ≤ n) (hb : b.weight + (k + 2) ≤ n) :
    (straddles a b).weight + k ≤ n :=
  weight_isAtMost_le (weight_times_le ha hb) (by simp; omega)

/-- Two ranges are compared at a depth of three, whichever way they are turned. -/
theorem weight_rangesOverlap_le {c d : Expr α} (ha : a.weight + (k + 3) ≤ n)
    (hb : b.weight + (k + 3) ≤ n) (hc : c.weight + (k + 3) ≤ n) (hd : d.weight + (k + 3) ≤ n) :
    (rangesOverlap a b c d).weight + k ≤ n := by
  unfold rangesOverlap
  apply_rules [weight_and_le, weight_isAtMost_le, weight_least_le, weight_greatest_le]

/-- The test of two segments has a depth of eight. -/
theorem weight_segmentsIntersect_le {s t : Ends α} (hs : EndsLight (k + 8) n s)
    (ht : EndsLight (k + 8) n t) : (segmentsIntersect s t).weight + k ≤ n := by
  obtain ⟨_, _, _, _⟩ := hs
  obtain ⟨_, _, _, _⟩ := ht
  refine weight_and_le (weight_and_le (weight_and_le ?_ ?_) ?_) ?_
  · exact weight_straddles_le
      (weight_orientation_le (by omega) (by omega) (by omega) (by omega) (by omega) (by omega))
      (weight_orientation_le (by omega) (by omega) (by omega) (by omega) (by omega) (by omega))
  · exact weight_straddles_le
      (weight_orientation_le (by omega) (by omega) (by omega) (by omega) (by omega) (by omega))
      (weight_orientation_le (by omega) (by omega) (by omega) (by omega) (by omega) (by omega))
  · exact weight_rangesOverlap_le (by omega) (by omega) (by omega) (by omega)
  · exact weight_rangesOverlap_le (by omega) (by omega) (by omega) (by omega)

/-- The text of a crossing point puts a quotient and a case distinction on top of that test. -/
theorem weight_crossingText_le {s t : Ends α} (hs : EndsLight (k + 10) n s)
    (ht : EndsLight (k + 10) n t) : (crossingText s t).weight + k ≤ n := by
  have hi : (segmentsIntersect s t).weight + (k + 2) ≤ n := weight_segmentsIntersect_le hs ht
  obtain ⟨_, _, _, _⟩ := hs
  obtain ⟨_, _, _, _⟩ := ht
  have difference {x y : Expr α} (hx : x.weight + (k + 10) ≤ n) (hy : y.weight + (k + 10) ≤ n) :
      (x.minus y).weight + (k + 9) ≤ n := weight_minus_le hx hy
  have product {x y x' y' : Expr α} (hx : x.weight + (k + 9) ≤ n) (hy : y.weight + (k + 9) ≤ n)
      (hx' : x'.weight + (k + 9) ≤ n) (hy' : y'.weight + (k + 9) ≤ n) :
      ((x.times y).minus (x'.times y')).weight + (k + 7) ≤ n :=
    weight_minus_le (weight_times_le hx hy) (weight_times_le hx' hy')
  have hrx := difference (x := s.x₂) (y := s.x₁) (by omega) (by omega)
  have hry := difference (x := s.y₂) (y := s.y₁) (by omega) (by omega)
  have hsx := difference (x := t.x₂) (y := t.x₁) (by omega) (by omega)
  have hsy := difference (x := t.y₂) (y := t.y₁) (by omega) (by omega)
  have hdx := difference (x := t.x₁) (y := s.x₁) (by omega) (by omega)
  have hdy := difference (x := t.y₁) (y := s.y₁) (by omega) (by omega)
  have hcross := product hrx hsy hry hsx
  have hu := weight_dividedBy_le (k := k + 6) (product hdx hsy hdy hsx) hcross
  refine weight_caseWhen_le (weight_and_le hi (weight_isNotEqual_le (by omega) (by simp; omega)))
    (weight_pointText_le (weight_plus_le (by omega) (weight_times_le hu (by omega)))
      (weight_plus_le (by omega) (weight_times_le hu (by omega)))) (by simp; omega)

/-- The better of two numbers is one level above them. -/
theorem weight_extreme_le {side : Side} (ha : a.weight + (k + 1) ≤ n)
    (hb : b.weight + (k + 1) ≤ n) : (extreme side a b).weight + k ≤ n := by
  unfold extreme
  split
  · exact weight_least_le ha hb
  · exact weight_greatest_le ha hb

/-- The best of several numbers gains one level for each of them. -/
theorem weight_foldl_extreme_le (side : Side) {rest : List (Expr α)} {a : Expr α} {m : Nat}
    (ha : a.weight ≤ m) (h : ∀ e ∈ rest, e.weight ≤ m) :
    (rest.foldl (extreme side) a).weight ≤ m + rest.length := by
  induction rest generalizing a m with
  | nil => simpa using ha
  | cons e rest ih =>
    simp only [List.foldl_cons, List.length_cons]
    have he := h e List.mem_cons_self
    have step : (extreme side a e).weight ≤ m + 1 :=
      weight_extreme_le (k := 0) (by omega) (by omega)
    have := ih step fun e' he' => by
      have := h e' (List.mem_cons_of_mem _ he')
      omega
    omega

/-- A bound that is read off a literal is a literal. -/
theorem weight_literalBound? {side : Side} {e : Expr α} (h : literalBound? side g = some e) :
    e.weight = 0 := by
  obtain ⟨bounds?, _, rfl⟩ := Option.map_eq_some_iff.mp h
  cases bounds? <;> simp

/-- The four sides of a box have the same rank. -/
theorem rank_side (side : Side) : side.op.rank = 6 := by
  obtain ⟨axis, isMin⟩ := side
  cases axis <;> cases isMin <;> rfl

/-- A bound that may be left to the database is seven levels above the geometry. -/
theorem weight_boundOf_le {kind : GeometryKind} {side : Side} (h : g.weight + (k + 7) ≤ n) :
    (boundOf kind side g).weight + k ≤ n := by
  unfold boundOf
  split
  · simp; omega
  · split
    · rename_i hb
      have := weight_literalBound? hb
      omega
    · split
      · exact weight_coordinate_le (by omega)
      · rw [weight_spatial₁, rank_side]
        omega

/-- A bound that is found through a node adds no more than the rank of the sides. -/
theorem weight_nodeBound? {kind : GeometryKind} {side : Side} {e : Expr α}
    (h : nodeBound? kind side g = some e) : e.weight ≤ g.weight + 6 := by
  unfold nodeBound? at h
  split at h
  · rename_i kind' valueKind shape members guarded
    rw [weight, topWeight, SpatialOp.rank]
    have light : ∀ e ∈ members.map (coordinate side.axis), e.weight ≤ heaviest members + 4 := by
      intro e he
      obtain ⟨m, hm, rfl⟩ := List.mem_map.mp he
      have := weight_le_heaviest hm
      exact weight_coordinate_le (k := 0) (by omega)
    unfold extremeOf? at h
    split at h
    · contradiction
    · rename_i first rest hm
      cases h
      rw [hm] at light
      have := weight_foldl_extreme_le side (light first List.mem_cons_self)
        fun e he => light e (List.mem_cons_of_mem _ he)
      have hlen := congrArg List.length hm
      simp only [List.length_map, List.length_cons] at hlen
      omega
  · rename_i inner valueKind shape operands guarded
    obtain ⟨g', hg, rfl⟩ := Option.map_eq_some_iff.mp h
    rw [weight, topWeight, SpatialOp.rank]
    have := weight_le_heaviest (List.mem_of_mem_head? hg)
    exact weight_boundOf_le (k := 0) (by omega)
  · rename_i inner valueKind shape operands guarded
    obtain ⟨g', hg, rfl⟩ := Option.map_eq_some_iff.mp h
    rw [weight, topWeight, SpatialOp.rank]
    have := weight_le_heaviest (List.mem_of_mem_head? hg)
    split
    · exact weight_minimum_le (k := 0) (weight_boundOf_le (by omega))
    · exact weight_maximum_le (k := 0) (weight_boundOf_le (by omega))
  · split at h
    · obtain ⟨_, _, _, _⟩ := endsLight_segmentEnds (g := g) (k := 1) (n := g.weight + 4) (by omega)
      split at h <;> cases h <;>
        exact Nat.le_trans (weight_extreme_le (k := 0) (by assumption) (by assumption)) (by omega)
    · contradiction

/-- The same for a bound however it is found. -/
theorem weight_emulateBound? {kind : GeometryKind} {side : Side} {e : Expr α}
    (h : emulateBound? kind side g = some e) : e.weight ≤ g.weight + 6 := by
  unfold emulateBound? at h
  split at h
  · rename_i hc
    cases h
    simp only [Bool.or_eq_true, decide_eq_true_eq] at hc
    unfold boundOf
    split
    · simp
    · rename_i hg
      split
      · rename_i hb
        have := weight_literalBound? hb
        omega
      · rename_i hb
        have hkind : kind = .point := by
          rcases hc with (hc | hc) | hc
          · exact absurd hc hg
          · simp [hb] at hc
          · exact hc
        rw [if_pos hkind]
        exact weight_coordinate_le (k := 0) (by omega)
  · exact weight_nodeBound? h

/-- A bound that is resolved as far as possible is no heavier than one that is left. -/
theorem weight_resolvedBound_le {kind : GeometryKind} {side : Side} (h : g.weight + (k + 7) ≤ n) :
    (resolvedBound kind side g).weight + k ≤ n := by
  unfold resolvedBound
  cases hb : emulateBound? kind side g with
  | some e =>
    have := weight_emulateBound? hb
    simp only [Option.getD_some]
    omega
  | none => exact weight_boundOf_le h

/-- Counting the points of a text has a depth of seven. -/
theorem weight_emulateNumberOfPoints_le (h : p.weight + (k + 7) ≤ n) :
    (emulateNumberOfPoints p).weight + k ≤ n := by
  unfold emulateNumberOfPoints
  split
  · simp; omega
  · simp; omega
  · exact weight_plus_le (weight_countOf_le (weight_textOf_le h)) (by simp; omega)

/-- Skipping members cuts the text once for each of them. -/
theorem weight_skipMembers_le {count : Nat} {a : Expr α} (h : a.weight + (k + count) ≤ n) :
    (skipMembers count a).weight + k ≤ n := by
  induction count generalizing a with
  | zero => exact h
  | succ count ih => exact ih (weight_substringAfter_le (by omega))

/-- A member is cut out at a depth that grows with its position. -/
theorem weight_memberText_le {index : α} {position : Nat} (h : p.weight + (k + position + 9) ≤ n) :
    (memberText p index position).weight + k ≤ n := by
  refine weight_caseWhen_le
    (weight_isLess_le (by simp; omega) (weight_emulateNumberOfPoints_le (by omega)))
    (weight_concatAll_le (fun e he => ?_) (by omega)) (by simp; omega)
  simp only [List.mem_cons, List.not_mem_nil, or_false] at he
  rcases he with rfl | rfl | rfl
  · simp; omega
  · exact weight_trim_le (weight_replace_le (weight_substringBefore_le
      (weight_skipMembers_le (weight_substringAfter_le (weight_textOf_le (by omega))))))
  · simp; omega

/-- The weight of an access by an index covers the cuts that lead to the member. -/
theorem weight_emulatePointAt (p : Expr α) (index : α) {position : Nat}
    (h : (Numeral.natural? index).getD 0 = position) :
    (emulatePointAt p index).expr.weight ≤ p.weight + position + 9 := by
  unfold emulatePointAt
  split
  · simp [Emulated.expr]
  · rename_i position' hp
    simp only [hp, Option.getD_some] at h
    subst h
    split
    · split <;> simp [Emulated.expr, point]
    · rename_i members _ hm
      have hw := heaviest_of_spatialOperands? hm
      cases hi : members[position']? with
      | none => simp [Emulated.expr]
      | some m =>
        have := weight_le_heaviest (List.mem_of_getElem? hi)
        simp only [Emulated.expr, Option.getD_some]
        omega
    · exact weight_memberText_le (k := 0) (by omega)

/-- A line through given members weighs what its construction does. -/
theorem weight_lineThrough_le (members : List (Expr α)) :
    (lineThrough members).weight ≤ SpatialOp.construct.rank + members.length + heaviest members := by
  unfold lineThrough
  split
  · split
    · simp [line]
    · exact Nat.le_of_eq (weight_construct _ _)
  · exact Nat.le_of_eq (weight_construct _ _)

/-- The text of a line is made of that of a collection below the rank of the conversion. -/
theorem weight_emulateToLine (p : Expr α) : (emulateToLine p).expr.weight ≤ p.weight + 11 := by
  unfold emulateToLine
  split
  · split <;> simp [Emulated.expr, line]
  · rename_i members _ hm
    have hw := heaviest_of_spatialOperands? hm
    have := weight_lineThrough_le members
    simp only [Emulated.expr]
    omega
  · simp only [Emulated.expr]
    rw [← Nat.add_zero (weight _)]
    refine weight_caseWhen_le (weight_isAtLeast_le ?_ ?_) ?_ ?_
    · rw [numberOfPoints, weight_spatial₁, SpatialOp.rank]
      omega
    · simp
    · refine weight_concatAll_le (fun e he => ?_) (by omega)
      simp only [List.mem_cons, List.not_mem_nil, or_false] at he
      rcases he with rfl | rfl | rfl
      · simp
      · exact weight_trim_le (weight_replace_le (weight_replace_le (weight_replace_le
          (weight_textOf_le (by omega)))))
      · simp
    · simp

/-- The distance of two points stays within its rank. -/
theorem weight_emulateDistance (p q : Expr α) :
    (emulateDistance p q).weight ≤ max p.weight q.weight + 8 := by
  unfold emulateDistance
  refine weight_sqrt_le (k := 0) (weight_plus_le
    (weight_squared_le (weight_minus_le (weight_coordinate_le ?_) (weight_coordinate_le ?_)))
    (weight_squared_le (weight_minus_le (weight_coordinate_le ?_) (weight_coordinate_le ?_)))) <;>
    omega

/-- The coordinate of a point stays within the rank of its accessor. -/
theorem weight_emulateCoordinate (axis : Axis) (p : Expr α) :
    (emulateCoordinate axis p).weight ≤ p.weight + 3 := by
  unfold emulateCoordinate
  cases hk : knownCoordinate? axis p with
  | some e =>
    have := weight_knownCoordinate? hk
    simp only [Option.getD_some]
    omega
  | none => exact weight_ordinate_le (k := 0) (weight_textOf_le (by omega))

/-- The ring of a polygon is its text with other words around it. -/
theorem weight_emulateExteriorRing (p : Expr α) : (emulateExteriorRing p).expr.weight ≤ p.weight + 5 := by
  unfold emulateExteriorRing
  split
  · simp [Emulated.expr, line]
  · exact weight_replace_le (k := 0) (weight_replace_le (weight_replace_le
      (weight_textOf_le (by omega))))

/-- Two geometries are compared by coordinates or by their texts. -/
theorem weight_emulateEquals (kind : GeometryKind) (a b : Expr α) :
    (emulateEquals kind a b).weight ≤ max a.weight b.weight + 6 := by
  unfold emulateEquals
  split
  · exact weight_pointsEqual_le (k := 0) (by omega) (by omega)
  · exact weight_isEqual_le (k := 0) (weight_textOf_le (by omega)) (weight_textOf_le (by omega))

/-- A text is no heavier than the geometry it is known from. -/
theorem weight_emulateAsText (kind : GeometryKind) (g : Expr α) :
    (emulateAsText kind g).weight ≤ g.weight := by
  unfold emulateAsText
  cases hk : knownText? kind g with
  | some e => exact weight_knownText? hk
  | none => exact Nat.le_refl _

/-- The four sides of a box are repeated without adding up. -/
theorem weight_emulateBoundingBox (kind : GeometryKind) (g : Expr α) :
    (emulateBoundingBox kind g).expr.weight ≤ g.weight + 10 := by
  unfold emulateBoundingBox
  split
  · simp [Emulated.expr]
  · split
    · simp [Emulated.expr, polygon]
    · simp [Emulated.expr]
    · refine weight_rectangleText_le (k := 0) ?_ ?_ ?_ ?_ <;>
        exact weight_resolvedBound_le (by omega)

/-- The extent of a group adds one aggregate to each side. -/
theorem weight_emulateExtent (kind : GeometryKind) (g : Expr α) :
    (emulateExtent kind g).expr.weight ≤ g.weight + 11 := by
  simp only [emulateExtent, Emulated.expr]
  rw [← Nat.add_zero (weight _)]
  refine weight_rectangleText_le ?_ ?_ ?_ ?_
  · exact weight_minimum_le (weight_resolvedBound_le (by omega))
  · exact weight_minimum_le (weight_resolvedBound_le (by omega))
  · exact weight_maximum_le (weight_resolvedBound_le (by omega))
  · exact weight_maximum_le (weight_resolvedBound_le (by omega))

/-- A node that may have come to a literal is at most as heavy as the node. -/
theorem weight_folded_le {kind : GeometryKind} {op : SpatialOp} (h : op ≠ .pointAtIndex) :
    (folded kind op a b).weight ≤ op.rank + 2 + max a.weight b.weight := by
  simp only [folded]
  split
  · exact Nat.le_of_eq (weight_spatial₂ h a b)
  · split
    · simp
    · exact Nat.le_of_eq (weight_spatial₂ h a b)

/-- Overlapping is the only formula that is heavier than its rank; the second operand makes up for
it. -/
theorem weight_emulateOverlaps (a b : Expr α) :
    (emulateOverlaps a b).weight ≤ max a.weight b.weight + 21 := by
  unfold emulateOverlaps
  split
  · simp
  · have hf : (folded .polygon .intersects a b).weight ≤ 18 + max a.weight b.weight :=
      weight_folded_le (by decide)
    have hs : (intersection a b).weight = 3 + max a.weight b.weight :=
      weight_spatial₂ (by decide) a b
    refine weight_and_le (k := 0) (weight_and_le ?_ ?_) ?_
    · omega
    · rw [weight_spatial₂ (by decide), hs, SpatialOp.rank]
      omega
    · rw [weight_spatial₂ (by decide), hs, SpatialOp.rank]
      omega

/-- Being within is containing, seen from the other side. -/
theorem weight_emulateWithin (a b : Expr α) : (emulateWithin a b).weight ≤ max a.weight b.weight + 3 := by
  unfold emulateWithin
  split
  · simp
  · have : (folded .polygon .contains b a).weight ≤ 3 + max b.weight a.weight :=
      weight_folded_le (by decide)
    omega

/-- The weight of a spatial node, apart from the way its operands were given. -/
def nodeWeight (op : SpatialOp) (args : List (Expr α)) : Nat :=
  op.rank + args.length + skipped op args + heaviest args

variable {op : SpatialOp} {args : List (Expr α)} {r : Emulated α}

/-- No node weighs nothing. -/
theorem nodeWeight_pos (op : SpatialOp) (args : List (Expr α)) : 0 < nodeWeight op args := by
  cases op <;> simp only [nodeWeight, SpatialOp.rank] <;> omega

theorem nodeWeight_one (op : SpatialOp) (a : Expr α) :
    nodeWeight op [a] = op.rank + 1 + a.weight := by
  simp [nodeWeight, skipped]

/-- A node over two operands weighs at least its rank, two and the heavier one. -/
theorem le_nodeWeight_two (op : SpatialOp) (a b : Expr α) :
    op.rank + 2 + max a.weight b.weight ≤ nodeWeight op [a, b] := by
  simp only [nodeWeight, heaviest_cons, heaviest_nil, List.length_cons, List.length_nil]
  omega

/-- Formulas for points weigh less than the nodes they stand in for. -/
theorem emulatePoint?_weight_lt (h : emulatePoint? op args = some r) :
    r.expr.weight < nodeWeight op args := by
  unfold emulatePoint? at h
  split at h
  · cases h
    have := weight_emulateCoordinate .x ‹Expr α›
    simp only [nodeWeight_one, SpatialOp.rank, Emulated.expr]
    omega
  · cases h
    have := weight_emulateCoordinate .y ‹Expr α›
    simp only [nodeWeight_one, SpatialOp.rank, Emulated.expr]
    omega
  · rename_i p q
    cases h
    have := weight_emulateDistance p q
    have := le_nodeWeight_two .distanceTo p q
    simp only [SpatialOp.rank, Emulated.expr] at *
    omega
  · contradiction

/-- Formulas for lines weigh less than the nodes they stand in for. -/
theorem emulateLine?_weight_lt (h : emulateLine? op a b = some r) :
    r.expr.weight < nodeWeight op [a, b] := by
  have hpos := nodeWeight_pos op [a, b]
  unfold emulateLine? at h
  split at h
  · obtain ⟨e, he, rfl⟩ := Option.map_eq_some_iff.mp h
    have : e.weight = 0 := by
      unfold onLines? at he
      split at he
      · cases he; simp
      · split at he <;> cases he <;> simp [point]
      · cases he; simp [multiPoint]
      · contradiction
    simp only [Emulated.expr]
    omega
  · contradiction

/-- Formulas for segments weigh less than the nodes they stand in for. -/
theorem emulateSegment?_weight_lt (h : emulateSegment? op a b = some r) :
    r.expr.weight < nodeWeight op [a, b] := by
  have hpos := nodeWeight_pos op [a, b]
  unfold emulateSegment? at h
  split at h
  · obtain ⟨e, he, rfl⟩ := Option.map_eq_some_iff.mp h
    have : e.weight = 0 := by
      unfold onSegments? at he
      split at he
      · cases he; simp
      · split at he <;> cases he <;> simp [point]
      · contradiction
    simp only [Emulated.expr]
    omega
  · split at h
    · cases h
      have := le_nodeWeight_two .intersects a b
      simp only [SpatialOp.rank, Emulated.expr] at *
      have : (segmentsIntersect (segmentEnds a) (segmentEnds b)).weight + 0 ≤
          max a.weight b.weight + 11 :=
        weight_segmentsIntersect_le (endsLight_segmentEnds (by omega))
          (endsLight_segmentEnds (by omega))
      omega
    · cases h
      have := le_nodeWeight_two .intersectionPoint a b
      simp only [SpatialOp.rank, Emulated.expr] at *
      have : (crossingText (segmentEnds a) (segmentEnds b)).weight + 0 ≤
          max a.weight b.weight + 13 :=
        weight_crossingText_le (endsLight_segmentEnds (by omega)) (endsLight_segmentEnds (by omega))
      omega
    · contradiction

/-- Formulas for collections weigh less than the nodes they stand in for. -/
theorem emulateMultiPoint?_weight_lt (h : emulateMultiPoint? op args = some r) :
    r.expr.weight < nodeWeight op args := by
  unfold emulateMultiPoint? at h
  split at h
  · rename_i points
    cases h
    have : (emulateNumberOfPoints points).weight + 0 ≤ points.weight + 7 :=
      weight_emulateNumberOfPoints_le (by omega)
    simp only [nodeWeight_one, SpatialOp.rank, Emulated.expr]
    omega
  · rename_i points index
    obtain ⟨i, hi, rfl⟩ := Option.map_eq_some_iff.mp h
    have := weight_emulatePointAt points i rfl
    simp only [nodeWeight, SpatialOp.rank, skipped, hi, heaviest_cons, List.length_cons,
      Option.bind_some]
    omega
  · rename_i points
    cases h
    have := weight_emulateToLine points
    simp only [nodeWeight_one, SpatialOp.rank]
    omega
  · contradiction

/-- Formulas for polygons weigh less than the nodes they stand in for. -/
theorem emulatePolygon?_weight_lt (h : emulatePolygon? op args = some r) :
    r.expr.weight < nodeWeight op args := by
  have hpos := nodeWeight_pos op args
  suffices hr : r.expr.weight = 0 ∨ ∃ p, op = .exteriorRing ∧ args = [p] ∧ r = emulateExteriorRing p by
    rcases hr with hr | ⟨p, rfl, rfl, rfl⟩
    · omega
    · have := weight_emulateExteriorRing p
      simp only [nodeWeight_one, SpatialOp.rank]
      omega
  have decided {test : Polygon α → Polygon α → Bool} {a b : Expr α}
      (h : onPolygons? test a b = some r) : r.expr.weight = 0 := by
    unfold onPolygons? at h
    split at h
    · cases h; simp [Emulated.expr]
    · contradiction
  unfold emulatePolygon? at h
  split at h
  · split at h
    · cases h; simp [Emulated.expr]
    · contradiction
  · exact .inl (decided h)
  · exact .inl (decided h)
  · exact .inl (decided h)
  · refine .inl ?_
    unfold emulateIntersection? at h
    split at h
    · obtain ⟨region, _, rfl⟩ := Option.map_eq_some_iff.mp h
      split <;> simp [Emulated.expr, polygon]
    · contradiction
  · obtain ⟨_, _, rfl⟩ := Option.map_eq_some_iff.mp h
    simp [Emulated.expr]
  · cases h
    exact .inr ⟨_, rfl, rfl, rfl⟩
  · contradiction

/-- Formulas that depend on the kind weigh less than the nodes they stand in for. -/
theorem emulateKind?_weight_lt {kind : GeometryKind} (h : emulateKind? kind op args = some r) :
    r.expr.weight < nodeWeight op args := by
  unfold emulateKind? at h
  split at h
  · exact emulatePoint?_weight_lt h
  · exact emulateLine?_weight_lt h
  · exact emulateSegment?_weight_lt h
  · exact emulateMultiPoint?_weight_lt h
  · exact emulatePolygon?_weight_lt h
  · contradiction

/-- Forms that need no other form weigh less than the nodes they stand in for. -/
theorem basic?_weight_lt {kind : GeometryKind} (h : basic? kind op args = some r) :
    r.expr.weight < nodeWeight op args := by
  have hpos := nodeWeight_pos op args
  have side {s : Side} {g : Expr α} (h : (emulateBound? kind s g).map Emulated.value = some r) :
      r.expr.weight < 7 + g.weight := by
    obtain ⟨e, he, rfl⟩ := Option.map_eq_some_iff.mp h
    have := weight_emulateBound? he
    simp only [Emulated.expr]
    omega
  unfold basic? at h
  split at h
  · cases h
    have : (constructText kind args).weight + 0 ≤ 9 + heaviest args :=
      weight_constructText_le (fun m hm => by have := weight_le_heaviest hm; omega) (by omega)
    simp only [nodeWeight, SpatialOp.rank, Emulated.expr]
    omega
  · rename_i g
    cases h
    have := weight_emulateAsText kind g
    simp only [nodeWeight_one, SpatialOp.rank, Emulated.expr]
    omega
  · rename_i a b
    cases h
    have := weight_emulateEquals kind a b
    have := le_nodeWeight_two .equals a b
    simp only [SpatialOp.rank, Emulated.expr] at *
    omega
  · simpa [nodeWeight_one, SpatialOp.rank] using side h
  · simpa [nodeWeight_one, SpatialOp.rank] using side h
  · simpa [nodeWeight_one, SpatialOp.rank] using side h
  · simpa [nodeWeight_one, SpatialOp.rank] using side h
  · rename_i g
    cases h
    have := weight_emulateBoundingBox kind g
    simp only [nodeWeight_one, SpatialOp.rank]
    omega
  · cases h; simpa [Emulated.expr] using hpos
  · cases h; simpa [Emulated.expr] using hpos
  · cases h; simpa [Emulated.expr] using hpos
  · cases h; simpa [Emulated.expr] using hpos
  · rename_i g
    cases h
    have := weight_emulateExtent kind g
    simp only [nodeWeight_one, SpatialOp.rank]
    omega
  · exact emulateKind?_weight_lt h

/-- A formula is lighter than the node it replaces. -/
theorem emulate?_weight_lt {kind : GeometryKind} (h : emulate? kind op args = some r) :
    r.expr.weight < nodeWeight op args := by
  unfold emulate? at h
  split at h
  · rename_i a b
    cases h
    have hf : (folded kind .equals a b).weight ≤ 8 + max a.weight b.weight :=
      weight_folded_le (by decide)
    have hn : (folded kind .equals a b).not.weight + 0 ≤ 9 + max a.weight b.weight :=
      weight_not_le (by omega)
    have := le_nodeWeight_two .notEquals a b
    simp only [SpatialOp.rank, Emulated.expr] at *
    omega
  · rename_i a b
    cases h
    have hf : (folded kind .intersects a b).weight ≤ 18 + max a.weight b.weight :=
      weight_folded_le (by decide)
    have hn : (folded kind .intersects a b).not.weight + 0 ≤ 19 + max a.weight b.weight :=
      weight_not_le (by omega)
    have := le_nodeWeight_two .doesNotIntersect a b
    simp only [SpatialOp.rank, Emulated.expr] at *
    omega
  · rename_i a b
    cases h
    have := weight_emulateOverlaps a b
    have := le_nodeWeight_two .overlaps a b
    simp only [SpatialOp.rank, Emulated.expr] at *
    omega
  · rename_i a b
    cases h
    have := weight_emulateWithin a b
    have := le_nodeWeight_two .within a b
    simp only [SpatialOp.rank, Emulated.expr] at *
    omega
  · exact basic?_weight_lt h

/-- A formula is lighter than the node it replaces, as it stands in a tree. -/
theorem emulate?_weight_lt_node {kind : GeometryKind} (h : emulate? kind op args = some r)
    (valueKind : ValueKind) (shape : Shape) (guarded : Bool) :
    r.expr.weight < (node (.spatial kind op) valueKind shape args guarded).weight := by
  rw [weight, topWeight]
  exact emulate?_weight_lt h

end SpatialSql.Emulation
