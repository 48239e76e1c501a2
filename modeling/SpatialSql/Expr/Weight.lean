import SpatialSql.Expr.Geometry

/-!
# The weight of an expression

A measure that grows by one along scalar nodes and by the rank of the operator along
spatial ones, and that looks only at the heaviest operand. Formulas may therefore
repeat their operands freely, as long as their depth stays below the rank of the
operator they replace. An access by a literal index also weighs as much as the
index, because its formula is that deep.

The bounds on builders are stated with a slack `k`, so that they chain through
nested formulas.
-/

namespace SpatialSql

/-- How far a spatial operator stands above the operators its formula is made of. -/
def SpatialOp.rank : SpatialOp → Nat
  | .asText => 1
  | .getX | .getY => 3
  | .construct => 12
  | .equals => 6
  | .notEquals => 8
  | .minX | .maxX | .minY | .maxY => 6
  | .boundingBox => 10
  | .extent => 12
  | .distanceTo => 8
  | .intersects => 16
  | .intersectionPoint => 18
  | .doesNotIntersect => 18
  | .overlaps => 20
  | .within => 4
  | .exteriorRing => 6
  | .numberOfPoints => 8
  | .pointAtIndex => 12
  | .toLine => 12
  | _ => 1

/-- Every operator has a positive rank. -/
theorem SpatialOp.rank_pos (op : SpatialOp) : 0 < op.rank := by
  cases op <;> decide

namespace Expr

variable {α : Type} [Numeral α]

/-- The literal index of a member access; zero for every other operator. -/
def skipped (op : SpatialOp) (operands : List (Expr α)) : Nat :=
  match op, operands with
  | .pointAtIndex, [_, index] => (index.number?.bind Numeral.natural?).getD 0
  | _, _ => 0

/-- The weight a node has on top of its heaviest operand. -/
def topWeight (op : Op) (operands : List (Expr α)) : Nat :=
  match op with
  | .scalar _ => 1
  | .spatial _ op => op.rank + operands.length + skipped op operands

mutual

/-- The weight of an expression. -/
def weight : Expr α → Nat
  | literal _ | column _ | absent _ => 0
  | node op _ _ operands _ => topWeight op operands + heaviest operands

/-- The weight of the heaviest expression of a list. -/
def heaviest : List (Expr α) → Nat
  | [] => 0
  | e :: rest => max (weight e) (heaviest rest)

end

@[simp] theorem weight_literal (v : Literal α) : (literal v).weight = 0 := by rw [weight]

@[simp] theorem weight_absent (k : ValueKind) : (absent k : Expr α).weight = 0 := by rw [weight]

@[simp] theorem weight_bool (v : Bool) : (bool v : Expr α).weight = 0 := weight_literal _

@[simp] theorem weight_number (v : α) : (number v).weight = 0 := weight_literal _

@[simp] theorem weight_text (v : String) : (text v : Expr α).weight = 0 := weight_literal _

@[simp] theorem heaviest_nil : heaviest ([] : List (Expr α)) = 0 := by rw [heaviest]

@[simp] theorem heaviest_cons (e : Expr α) (rest : List (Expr α)) :
    heaviest (e :: rest) = max e.weight (heaviest rest) := by rw [heaviest]

/-- A list is as light as all of its members. -/
theorem heaviest_le_iff {es : List (Expr α)} {n : Nat} :
    heaviest es ≤ n ↔ ∀ e ∈ es, e.weight ≤ n := by
  induction es with
  | nil => simp
  | cons e rest ih => rw [heaviest_cons, Nat.max_le, ih, List.forall_mem_cons]

/-- No member is heavier than the list. -/
theorem weight_le_heaviest {es : List (Expr α)} {e : Expr α} (h : e ∈ es) :
    e.weight ≤ heaviest es :=
  heaviest_le_iff.mp (Nat.le_refl _) e h

/-- A node weighs more than its heaviest operand, whatever its operator. -/
theorem heaviest_lt_weight (op : Op) (kind : ValueKind) (shape : Shape) (operands : List (Expr α))
    (guarded : Bool) : heaviest operands < (node op kind shape operands guarded).weight := by
  rw [weight]
  have htop : 0 < topWeight op operands := by
    cases op with
    | scalar op => exact Nat.zero_lt_one
    | spatial geometry op => exact Nat.add_pos_left (Nat.add_pos_left op.rank_pos _) _
  omega

/-- What a null test looks at is lighter than the node. -/
theorem nullSubject_weight_lt (op : Op) (kind kind' : ValueKind) (shape : Shape)
    (operands : List (Expr α)) (guarded : Bool) :
    (nullSubject kind operands).weight < (node op kind' shape operands guarded).weight := by
  have h := heaviest_lt_weight op kind' shape operands guarded
  rcases operands with _ | ⟨e, rest⟩
  · simp only [nullSubject, List.head?_nil, Option.getD_none, weight_absent]
    omega
  · simp only [nullSubject, List.head?_cons, Option.getD_some]
    have := weight_le_heaviest (List.mem_cons_self : e ∈ e :: rest)
    omega

/-- The operands of a node with a given spatial operator are lighter by its rank and their number. -/
theorem heaviest_of_spatialOperands? {op : SpatialOp} {e : Expr α} {operands : List (Expr α)}
    (h : e.spatialOperands? op = some operands) :
    op.rank + operands.length + heaviest operands ≤ e.weight := by
  unfold spatialOperands? at h
  split at h
  · split at h
    · simp only [Option.some.injEq] at h
      subst_vars
      rw [weight, topWeight]
      omega
    · contradiction
  · contradiction

section Builders

variable {a b c : Expr α} {k n : Nat}

/-- A scalar node is one level above its operands. -/
theorem weight_scalar_le {op : ScalarOp} {kind : ValueKind} {shape : Shape}
    {operands : List (Expr α)} (h : heaviest operands + (k + 1) ≤ n) :
    (scalar op kind shape operands).weight + k ≤ n := by
  rw [scalar, apply, weight, topWeight]
  omega

/-- A spatial node over one operand weighs its rank and one more. -/
theorem weight_spatial₁ (kind : GeometryKind) (op : SpatialOp) (a : Expr α) :
    (spatial₁ kind op a).weight = op.rank + 1 + a.weight := by
  rw [spatial₁, spatial, apply, weight, topWeight]
  simp [skipped]

/-- A spatial node over two operands weighs its rank and two more than the heavier one, if it takes
no index. -/
theorem weight_spatial₂ {kind : GeometryKind} {op : SpatialOp} (h : op ≠ .pointAtIndex)
    (a b : Expr α) : (spatial₂ kind op a b).weight = op.rank + 2 + max a.weight b.weight := by
  rw [spatial₂, spatial, apply, weight, topWeight]
  cases op <;> simp_all [skipped]

/-- A construction weighs its rank and one for each member more than the heaviest of them. -/
theorem weight_construct (kind : GeometryKind) (members : List (Expr α)) :
    (construct kind members).weight = SpatialOp.construct.rank + members.length + heaviest members := by
  rw [construct, spatial, apply, weight, topWeight]
  simp [skipped]

/-- A comparison is one level above what it compares. -/
theorem weight_compare_le {op : ScalarOp} (ha : a.weight + (k + 1) ≤ n)
    (hb : b.weight + (k + 1) ≤ n) : (compare op a b).weight + k ≤ n := by
  unfold compare
  split
  · simp; omega
  · exact weight_scalar_le (by simp; omega)

theorem weight_isEqual_le (ha : a.weight + (k + 1) ≤ n) (hb : b.weight + (k + 1) ≤ n) :
    (a.isEqual b).weight + k ≤ n := weight_compare_le ha hb

theorem weight_isNotEqual_le (ha : a.weight + (k + 1) ≤ n) (hb : b.weight + (k + 1) ≤ n) :
    (a.isNotEqual b).weight + k ≤ n := weight_compare_le ha hb

theorem weight_isLess_le (ha : a.weight + (k + 1) ≤ n) (hb : b.weight + (k + 1) ≤ n) :
    (a.isLess b).weight + k ≤ n := weight_compare_le ha hb

theorem weight_isAtMost_le (ha : a.weight + (k + 1) ≤ n) (hb : b.weight + (k + 1) ≤ n) :
    (a.isAtMost b).weight + k ≤ n := weight_compare_le ha hb

theorem weight_isAtLeast_le (ha : a.weight + (k + 1) ≤ n) (hb : b.weight + (k + 1) ≤ n) :
    (a.isAtLeast b).weight + k ≤ n := weight_compare_le ha hb

/-- A conjunction is one level above its conditions. -/
theorem weight_and_le (ha : a.weight + (k + 1) ≤ n) (hb : b.weight + (k + 1) ≤ n) :
    (a.and b).weight + k ≤ n := by
  unfold Expr.and connective
  split
  · simp; omega
  split
  · omega
  split
  · omega
  · exact weight_scalar_le (by simp; omega)

/-- A negation is one level above its condition. -/
theorem weight_not_le (ha : a.weight + (k + 1) ≤ n) : a.not.weight + k ≤ n := by
  unfold Expr.not
  split
  · simp; omega
  · exact weight_scalar_le (by simp; omega)

/-- A case distinction is one level above its condition and both values. -/
theorem weight_caseWhen_le (ha : a.weight + (k + 1) ≤ n) (hb : b.weight + (k + 1) ≤ n)
    (hc : c.weight + (k + 1) ≤ n) : (caseWhen a b c).weight + k ≤ n := by
  unfold caseWhen
  split
  · omega
  · omega
  · exact weight_scalar_le (by simp; omega)

/-- Arithmetic is one level above its operands, folded or not. -/
theorem weight_arithmetic_le {op : ScalarOp} {fold : α → α → Option α}
    (ha : a.weight + (k + 1) ≤ n) (hb : b.weight + (k + 1) ≤ n) :
    (arithmetic op fold a b).weight + k ≤ n := by
  unfold arithmetic
  split
  · split
    · simp; omega
    · exact weight_scalar_le (by simp; omega)
  · exact weight_scalar_le (by simp; omega)

/-- The same for one operand. -/
theorem weight_arithmetic₁_le {op : ScalarOp} {fold : α → Option α}
    (ha : a.weight + (k + 1) ≤ n) : (arithmetic₁ op fold a).weight + k ≤ n := by
  unfold arithmetic₁
  split
  · simp; omega
  · exact weight_scalar_le (by simp; omega)

theorem weight_plus_le (ha : a.weight + (k + 1) ≤ n) (hb : b.weight + (k + 1) ≤ n) :
    (a.plus b).weight + k ≤ n := weight_arithmetic_le ha hb

theorem weight_minus_le (ha : a.weight + (k + 1) ≤ n) (hb : b.weight + (k + 1) ≤ n) :
    (a.minus b).weight + k ≤ n := weight_arithmetic_le ha hb

theorem weight_times_le (ha : a.weight + (k + 1) ≤ n) (hb : b.weight + (k + 1) ≤ n) :
    (a.times b).weight + k ≤ n := weight_arithmetic_le ha hb

theorem weight_dividedBy_le (ha : a.weight + (k + 1) ≤ n) (hb : b.weight + (k + 1) ≤ n) :
    (a.dividedBy b).weight + k ≤ n := weight_arithmetic_le ha hb

theorem weight_squared_le (ha : a.weight + (k + 1) ≤ n) : a.squared.weight + k ≤ n :=
  weight_times_le ha ha

theorem weight_least_le (ha : a.weight + (k + 1) ≤ n) (hb : b.weight + (k + 1) ≤ n) :
    (a.least b).weight + k ≤ n := weight_arithmetic_le ha hb

theorem weight_greatest_le (ha : a.weight + (k + 1) ≤ n) (hb : b.weight + (k + 1) ≤ n) :
    (a.greatest b).weight + k ≤ n := weight_arithmetic_le ha hb

theorem weight_sqrt_le (ha : a.weight + (k + 1) ≤ n) : a.sqrt.weight + k ≤ n :=
  weight_arithmetic₁_le ha

theorem weight_minimum_le (ha : a.weight + (k + 1) ≤ n) : a.minimum.weight + k ≤ n :=
  weight_scalar_le (by simp; omega)

theorem weight_maximum_le (ha : a.weight + (k + 1) ≤ n) : a.maximum.weight + k ≤ n :=
  weight_scalar_le (by simp; omega)

/-- The text of a number is one level above it. -/
theorem weight_toText_le (ha : a.weight + (k + 1) ≤ n) : a.toText.weight + k ≤ n := by
  unfold toText
  split
  · simp; omega
  · exact weight_scalar_le (by simp; omega)

/-- A builder that is computed on a literal text weighs no more than the node it makes of another. -/
theorem weight_computed_le {op : ScalarOp} {kind : ValueKind} {shape : Shape}
    {operands : List (Expr α)} {value : String → Literal α} (h : heaviest operands + (k + 1) ≤ n) :
    (match a.text? with
      | some s => literal (value s)
      | none => scalar op kind shape operands).weight + k ≤ n := by
  split
  · rw [weight_literal]
    omega
  · exact weight_scalar_le h

theorem weight_substringBefore_le {d : String} (ha : a.weight + (k + 1) ≤ n) :
    (a.substringBefore d).weight + k ≤ n :=
  weight_computed_le (by simp; omega)

theorem weight_substringAfter_le {d : String} (ha : a.weight + (k + 1) ≤ n) :
    (a.substringAfter d).weight + k ≤ n :=
  weight_computed_le (by simp; omega)

theorem weight_trim_le (ha : a.weight + (k + 1) ≤ n) : a.trim.weight + k ≤ n :=
  weight_computed_le (by simp; omega)

theorem weight_replace_le {s t : String} (ha : a.weight + (k + 1) ≤ n) :
    (a.replace s t).weight + k ≤ n :=
  weight_computed_le (by simp; omega)

theorem weight_length_le (ha : a.weight + (k + 1) ≤ n) : a.length.weight + k ≤ n :=
  weight_computed_le (by simp; omega)

/-- Counting occurrences compares two lengths, at a depth of four. -/
theorem weight_countOf_le {s : String} (ha : a.weight + (k + 4) ≤ n) :
    (a.countOf s).weight + k ≤ n := by
  unfold countOf
  apply_rules [weight_dividedBy_le, weight_minus_le, weight_length_le, weight_replace_le]
  · omega
  · simp; omega

/-- A number that is read off a text is one level above it. -/
theorem weight_ordinate_le {i : UInt32} (ha : a.weight + (k + 1) ≤ n) :
    (a.ordinate i).weight + k ≤ n := by
  unfold ordinate
  split
  · split <;> simp <;> omega
  · exact weight_scalar_le (by simp; omega)

/-- The parts an expression brings to a concatenation are no heavier than it. -/
theorem weight_le_of_mem_concatParts {e part : Expr α} (h : part ∈ e.concatParts) :
    part.weight ≤ e.weight := by
  unfold concatParts at h
  split at h
  · rename_i kind shape operands guarded
    have := weight_le_heaviest h
    have := heaviest_lt_weight (.scalar .concat) kind shape operands guarded
    omega
  · simp only [List.mem_singleton] at h
    exact h ▸ Nat.le_refl _

/-- Merging literals makes nothing heavier. -/
theorem heaviest_mergeParts_le (parts : List (Expr α)) :
    heaviest (mergeParts parts) ≤ heaviest parts := by
  induction parts with
  | nil => simp [mergeParts]
  | cons part rest ih =>
    simp only [mergeParts, List.foldr_cons, consPart] at ih ⊢
    split
    · rename_i s t more h
      rw [h] at ih
      simp only [heaviest_cons, weight_text, weight_literal] at ih ⊢
      omega
    · simp only [heaviest_cons]
      omega

/-- A concatenation is one level above its parts, flattened and merged or not. -/
theorem weight_concatAll_le {parts : List (Expr α)} (h : ∀ e ∈ parts, e.weight + (k + 1) ≤ n)
    (hn : k + 1 ≤ n) : (concatAll parts).weight + k ≤ n := by
  have hm : heaviest (mergeParts (parts.flatMap concatParts)) ≤ n - (k + 1) := by
    refine Nat.le_trans (heaviest_mergeParts_le _) (heaviest_le_iff.mpr fun e he => ?_)
    obtain ⟨part, hp, he⟩ := List.mem_flatMap.mp he
    have := weight_le_of_mem_concatParts he
    have := h part hp
    omega
  unfold concatAll
  split
  · simp; omega
  · rename_i part heq
    rw [heq] at hm
    simp only [heaviest_cons, heaviest_nil] at hm
    omega
  · exact weight_scalar_le (by omega)

/-- A concatenation of two texts is one level above both. -/
theorem weight_concat_le (ha : a.weight + (k + 1) ≤ n) (hb : b.weight + (k + 1) ≤ n) :
    (concat a b).weight + k ≤ n :=
  weight_concatAll_le (by simp [ha, hb]) (by omega)

end Builders

end Expr

end SpatialSql
