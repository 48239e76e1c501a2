import SpatialSql.Proofs.Meaning.Evaluation

/-!
# Folding keeps the value

The builders compute what their literal operands settle and hand an operand back where a
literal is neutral. Here each of them is evaluated: what it returns has the value that
its operator gives to the values of the operands, in every environment and for every
operands, among them spatial nodes, aggregates and operands of the wrong type.
-/

namespace SpatialSql

namespace Expr

variable {α : Type} {a : Expr α}

/-- A known truth value is a literal. -/
theorem eq_bool_of_bool? {p : Bool} (h : a.bool? = some p) : a = .bool p := by
  unfold bool? at h
  split at h
  · cases h; rfl
  · contradiction

/-- A known number is a literal. -/
theorem eq_number_of_number? {x : α} (h : a.number? = some x) : a = .number x := by
  unfold number? at h
  split at h
  · cases h; rfl
  · contradiction

/-- A known text is a literal. -/
theorem eq_text_of_text? {s : String} (h : a.text? = some s) : a = .text s := by
  unfold text? at h
  split at h
  · cases h; rfl
  · contradiction

end Expr

namespace Environment

open SpatialSql.Expr

variable {α : Type} [Numeral α] (env : Environment α) {a b c : Expr α}

section Leaves

@[simp] theorem eval_literal (v : Literal α) : env.eval (.literal v) = some v := by rw [eval]

@[simp] theorem eval_absent (kind : ValueKind) : env.eval (.absent kind) = none := by rw [eval]

@[simp] theorem eval_bool (p : Bool) : env.eval (.bool p) = some (.bool p) := env.eval_literal _

@[simp] theorem eval_number (x : α) : env.eval (.number x) = some (.number x) := env.eval_literal _

@[simp] theorem eval_text (s : String) : env.eval (.text s) = some (.text s) := env.eval_literal _

@[simp] theorem truth_bool (p : Bool) : env.truth (.bool p) = some p := by
  simp [truth, Literal.bool?]

@[simp] theorem number_number (x : α) : env.number (.number x) = some x := by
  simp [number, Literal.number?]

@[simp] theorem text_text (s : String) : env.text (.text s) = some s := by
  simp [text, Literal.text?]

end Leaves

/-- Operands are evaluated one by one. -/
theorem evalAll_eq_map (es : List (Expr α)) : env.evalAll es = es.map env.eval := by
  induction es with
  | nil => rw [evalAll, List.map_nil]
  | cons e rest ih => rw [evalAll, ih, List.map_cons]

/-- A scalar node that is no aggregate applies its operator to the values of the operands. -/
theorem eval_scalar {op : ScalarOp} (hop : op.isAggregate = false) (kind : ValueKind)
    (shape : Shape) (operands : List (Expr α)) :
    env.eval (Expr.scalar op kind shape operands) = env.scalar op (operands.map env.eval) := by
  rw [Expr.scalar, Expr.apply, eval, evalAll_eq_map, hop]
  rfl

section Arithmetic

/-- A numeric operator on two operands that may be left to the database: folding has to agree with
the operator where it is done. -/
theorem eval_arithmetic {op : ScalarOp} {fold meaning : α → α → Option α}
    (hop : op.isAggregate = false)
    (hnode : ∀ v w : Option (Literal α), env.scalar op [v, w] =
      ((v.bind Literal.number?).bind fun x => (w.bind Literal.number?).bind (meaning x)).map .number)
    (hfold : ∀ x y z, fold x y = some z → meaning x y = some z) :
    env.eval (arithmetic op fold a b) =
      ((env.number a).bind fun x => (env.number b).bind (meaning x)).map .number := by
  have node : env.eval (Expr.scalar op .number .binary [a, b]) =
      ((env.number a).bind fun x => (env.number b).bind (meaning x)).map .number := by
    rw [eval_scalar env hop]
    exact hnode _ _
  unfold arithmetic
  split
  · next x y hx hy =>
    split
    · next z hz =>
      rw [eq_number_of_number? hx, eq_number_of_number? hy]
      simp [hfold x y z hz]
    · exact node
  · exact node

/-- A numeric operator on two operands that is always folded. -/
theorem eval_arithmetic_total {op : ScalarOp} {f : α → α → α} (hop : op.isAggregate = false)
    (hnode : ∀ v w : Option (Literal α), env.scalar op [v, w] =
      (Option.map₂ f (v.bind Literal.number?) (w.bind Literal.number?)).map .number) :
    env.eval (arithmetic op (fun x y => some (f x y)) a b) =
      (Option.map₂ f (env.number a) (env.number b)).map .number := by
  have strict (p q : Option α) :
      Option.map₂ f p q = p.bind fun x => q.bind fun y => some (f x y) := by
    cases p <;> cases q <;> rfl
  rw [strict]
  refine env.eval_arithmetic hop (fun v w => ?_) fun x y z h => h
  rw [hnode, strict]

/-- A numeric operator on one operand. -/
theorem eval_arithmetic₁ {op : ScalarOp} {fold meaning : α → Option α}
    (hop : op.isAggregate = false)
    (hnode : ∀ v : Option (Literal α), env.scalar op [v] =
      ((v.bind Literal.number?).bind meaning).map .number)
    (hfold : ∀ x z, fold x = some z → meaning x = some z) :
    env.eval (arithmetic₁ op fold a) = ((env.number a).bind meaning).map .number := by
  unfold arithmetic₁
  split
  · next z hz =>
    obtain ⟨x, hx, hz⟩ := Option.bind_eq_some_iff.mp hz
    rw [eq_number_of_number? hx]
    simp [hfold x z hz]
  · rw [eval_scalar env hop]
    exact hnode _

theorem eval_plus : env.eval (a.plus b) =
    (Option.map₂ (fun x y => x + y) (env.number a) (env.number b)).map .number :=
  env.eval_arithmetic_total rfl fun _ _ => rfl

theorem eval_minus : env.eval (a.minus b) =
    (Option.map₂ (fun x y => x - y) (env.number a) (env.number b)).map .number :=
  env.eval_arithmetic_total rfl fun _ _ => rfl

theorem eval_times : env.eval (a.times b) =
    (Option.map₂ (fun x y => x * y) (env.number a) (env.number b)).map .number :=
  env.eval_arithmetic_total rfl fun _ _ => rfl

theorem eval_least : env.eval (a.least b) =
    (Option.map₂ Coordinate.least (env.number a) (env.number b)).map .number :=
  env.eval_arithmetic_total rfl fun _ _ => rfl

theorem eval_greatest : env.eval (a.greatest b) =
    (Option.map₂ Coordinate.greatest (env.number a) (env.number b)).map .number :=
  env.eval_arithmetic_total rfl fun _ _ => rfl

/-- A square is the product of a number with itself. -/
theorem eval_squared : env.eval a.squared =
    (env.number a).map fun x => .number (x * x) := by
  rw [squared, eval_times]
  cases env.number a <;> rfl

theorem eval_negate : env.eval a.negate = (env.number a).map fun x => .number (-x) := by
  have hnode (v : Option (Literal α)) : env.scalar .negate [v] =
      ((v.bind Literal.number?).bind fun x => some (-x)).map .number := by
    rcases v with _ | v
    · rfl
    · cases v <;> rfl
  rw [negate, env.eval_arithmetic₁ rfl hnode fun x z h => h]
  cases env.number a <;> rfl

/-- A quotient of literals is computed only where the divisor is not zero. -/
theorem eval_dividedBy : env.eval (a.dividedBy b) =
    ((env.number a).bind fun x => (env.number b).bind (env.quotient x)).map .number := by
  refine env.eval_arithmetic rfl (fun _ _ => rfl) fun x y z h => ?_
  unfold quotient
  split at h
  · contradiction
  · rename_i hy
    rw [if_neg hy]
    exact h

/-- A root of a literal is computed only where it is at least zero. -/
theorem eval_sqrt : env.eval a.sqrt = ((env.number a).bind env.root).map .number := by
  refine env.eval_arithmetic₁ rfl (fun _ => rfl) fun x z h => ?_
  unfold root
  split at h
  · rename_i hx
    rw [if_pos hx]
    exact h
  · contradiction

/-- A number is written as the database writes it. -/
theorem eval_toText : env.eval a.toText = (env.number a).map fun x => .text (Numeral.text x) := by
  unfold toText
  split
  · next x hx =>
    rw [eq_number_of_number? hx]
    simp
  · rw [eval_scalar env rfl]
    rfl

end Arithmetic

section Comparison

/-- A comparison gives what its operator does, and literals are compared as the database would. -/
theorem eval_compare {op : ScalarOp} (hop : op.isAggregate = false) :
    env.eval (Expr.compare op a b) = env.scalar op [env.eval a, env.eval b] := by
  unfold Expr.compare
  split
  · next p hp =>
    unfold compareLiterals? at hp
    split at hp
    all_goals
      first
      | contradiction
      | rw [eval_bool, eval_literal, eval_literal]
        cases op <;> cases hp <;> rfl
  · exact eval_scalar env hop _ _ _

theorem eval_isEqual :
    env.eval (a.isEqual b) = (env.compared Literal.equal? a b).map .bool :=
  env.eval_compare rfl

theorem eval_isNotEqual :
    env.eval (a.isNotEqual b) = (Truth.not (env.compared Literal.equal? a b)).map .bool :=
  env.eval_compare rfl

theorem eval_isLess : env.eval (a.isLess b) = (env.compared Literal.less? a b).map .bool :=
  env.eval_compare rfl

theorem eval_isAtMost : env.eval (a.isAtMost b) = (env.compared Literal.atMost? a b).map .bool :=
  env.eval_compare rfl

/-- The first value is larger if the second is smaller. -/
theorem eval_isGreater : env.eval (a.isGreater b) = (env.compared Literal.less? b a).map .bool :=
  env.eval_compare rfl

theorem eval_isAtLeast :
    env.eval (a.isAtLeast b) = (env.compared Literal.atMost? b a).map .bool :=
  env.eval_compare rfl

end Comparison

section Connectives

/-- A connective joins the truth values of its conditions, if a literal that is neutral leaves a null
beside it and the opposite one absorbs it. -/
theorem truth_connective {op : ScalarOp} {neutral : Bool}
    {join : Option Bool → Option Bool → Option Bool} (hop : op.isAggregate = false)
    (hnode : ∀ v w : Option (Literal α), env.scalar op [v, w] =
      (join (v.bind Literal.bool?) (w.bind Literal.bool?)).map .bool)
    (hneutral : ∀ p, join (some neutral) p = p ∧ join p (some neutral) = p)
    (habsorbs : ∀ p, join (some !neutral) p = some !neutral ∧ join p (some !neutral) = some !neutral) :
    env.truth (connective op neutral a b) = join (env.truth a) (env.truth b) := by
  unfold connective
  split
  · next h =>
    rcases h with ha | hb
    · rw [eq_bool_of_bool? ha, truth_bool, (habsorbs _).1]
    · rw [eq_bool_of_bool? hb, truth_bool, (habsorbs _).2]
  split
  · next ha => rw [eq_bool_of_bool? ha, truth_bool, (hneutral _).1]
  split
  · next hb => rw [eq_bool_of_bool? hb, truth_bool, (hneutral _).2]
  · have hvalue : env.eval (Expr.scalar op .boolean .binary [a, b]) =
        (join (env.truth a) (env.truth b)).map .bool :=
      (env.eval_scalar hop _ _ _).trans (hnode _ _)
    rw [truth, hvalue]
    cases join (env.truth a) (env.truth b) <;> rfl

/-- False absorbs a null beside it, and true leaves it. -/
theorem truth_and : env.truth (a.and b) = Truth.and (env.truth a) (env.truth b) := by
  refine env.truth_connective rfl (fun _ _ => rfl) (fun p => ?_) fun p => ?_
  all_goals rcases p with _ | _ | _ <;> exact ⟨rfl, rfl⟩

/-- True absorbs a null beside it, and false leaves it. -/
theorem truth_or : env.truth (a.or b) = Truth.or (env.truth a) (env.truth b) := by
  refine env.truth_connective rfl (fun _ _ => rfl) (fun p => ?_) fun p => ?_
  all_goals rcases p with _ | _ | _ <;> exact ⟨rfl, rfl⟩

/-- The negation of a null is null. -/
theorem eval_not : env.eval a.not = (Truth.not (env.truth a)).map .bool := by
  unfold Expr.not
  split
  · next p hp =>
    rw [eq_bool_of_bool? hp]
    simp [Truth.not]
  · rw [eval_scalar env rfl]
    rfl

/-- A connective over a list joins the truth values of its conditions, if it does for two. -/
theorem truth_foldl {build : Expr α → Expr α → Expr α}
    {join : Option Bool → Option Bool → Option Bool}
    (h : ∀ a b, env.truth (build a b) = join (env.truth a) (env.truth b))
    (conditions : List (Expr α)) (e : Expr α) :
    env.truth (conditions.foldl build e) = (conditions.map env.truth).foldl join (env.truth e) := by
  rw [List.foldl_map]
  exact (List.foldl_hom env.truth fun a b => (h a b).symm).symm

/-- A conjunction of conditions takes their truth values together one by one, starting from true. -/
theorem truth_all (conditions : List (Expr α)) : env.truth (Expr.all conditions) =
    (conditions.map env.truth).foldl Truth.and (some true) := by
  rw [Expr.all, env.truth_foldl fun _ _ => env.truth_and, truth_bool]

/-- A disjunction does so starting from false. -/
theorem truth_any (conditions : List (Expr α)) : env.truth (Expr.any conditions) =
    (conditions.map env.truth).foldl Truth.or (some false) := by
  rw [Expr.any, env.truth_foldl fun _ _ => env.truth_or, truth_bool]

/-- A condition that is null gives the second value. -/
theorem eval_caseWhen : env.eval (caseWhen a b c) =
    if env.truth a = some true then env.eval b else env.eval c := by
  unfold caseWhen
  split
  · next ha => rw [eq_bool_of_bool? ha]; simp
  · next ha => rw [eq_bool_of_bool? ha]; simp
  · rw [eval_scalar env rfl]
    rfl

end Connectives

section Texts

@[simp] theorem concatenation_cons (t : Option String) (ts : List (Option String)) :
    concatenation (t :: ts) = Option.map₂ (fun s t => s ++ t) t (concatenation ts) := rfl

/-- A concatenation of one text is that text. -/
theorem concatenation_singleton (t : Option String) : concatenation [t] = t := by
  cases t <;> simp [concatenation, Option.map₂]

/-- Concatenations can be joined. -/
theorem concatenation_append (ts us : List (Option String)) : concatenation (ts ++ us) =
    Option.map₂ (fun s t => s ++ t) (concatenation ts) (concatenation us) := by
  induction ts with
  | nil => cases h : concatenation us <;> simp [concatenation, Option.map₂] at h ⊢ <;> exact h
  | cons t ts ih =>
    rw [List.cons_append, concatenation_cons, ih, concatenation_cons]
    cases t <;> cases concatenation ts <;> cases concatenation us <;> simp [String.append_assoc]

/-- The text of a node that concatenates is the concatenation of its parts. -/
theorem text_scalar_concat (kind : ValueKind) (shape : Shape) (operands : List (Expr α))
    (guarded : Bool) : env.text (.node (.scalar .concat) kind shape operands guarded) =
      concatenation (operands.map env.text) := by
  rw [text, eval, evalAll_eq_map]
  change ((concatenation ((operands.map env.eval).map fun v => v.bind Literal.text?)).map
    Literal.text).bind Literal.text? = _
  rw [List.map_map]
  change _ = concatenation (operands.map ((fun v => v.bind Literal.text?) ∘ env.eval))
  cases concatenation (operands.map ((fun v => v.bind Literal.text?) ∘ env.eval)) <;> rfl

/-- A text is the concatenation of the parts it brings to one. -/
theorem concatenation_concatParts (e : Expr α) :
    concatenation (e.concatParts.map env.text) = env.text e := by
  unfold concatParts
  split
  · exact (env.text_scalar_concat _ _ _ _).symm
  · exact concatenation_singleton _

/-- Concatenations within a concatenation may be opened up. -/
theorem concatenation_flatMap_concatParts (parts : List (Expr α)) :
    concatenation ((parts.flatMap concatParts).map env.text) =
      concatenation (parts.map env.text) := by
  induction parts with
  | nil => rfl
  | cons part rest ih =>
    rw [List.flatMap_cons, List.map_append, concatenation_append, ih, concatenation_concatParts,
      List.map_cons, concatenation_cons]

/-- Merging adjacent literals does not change the text. -/
theorem concatenation_mergeParts (parts : List (Expr α)) :
    concatenation ((mergeParts parts).map env.text) = concatenation (parts.map env.text) := by
  induction parts with
  | nil => rfl
  | cons part rest ih =>
    rw [List.map_cons, concatenation_cons, ← ih]
    simp only [mergeParts, List.foldr_cons, consPart]
    split
    · next s t more h =>
      rw [h]
      change concatenation ((Expr.text (s ++ t) :: more).map env.text) = Option.map₂ _
        (env.text (.text s)) (concatenation ((Expr.text t :: more).map env.text))
      rw [List.map_cons, List.map_cons, concatenation_cons, concatenation_cons, text_text, text_text,
        text_text]
      cases concatenation (more.map env.text) <;> simp [String.append_assoc]
    · rfl

/-- The text of a concatenation is the concatenation of the texts, flattened and merged or not. -/
theorem text_concatAll (parts : List (Expr α)) :
    env.text (concatAll parts) = concatenation (parts.map env.text) := by
  rw [← concatenation_flatMap_concatParts, ← concatenation_mergeParts, concatAll]
  split
  · next h => rw [h]; exact env.text_text ""
  · next part h => rw [h]; exact (concatenation_singleton _).symm
  · exact env.text_scalar_concat ..

/-- A concatenation of two texts is null if one of them is. -/
theorem text_concat :
    env.text (concat a b) = Option.map₂ (fun s t => s ++ t) (env.text a) (env.text b) := by
  rw [concat, text_concatAll, List.map_cons, List.map_singleton, concatenation_cons,
    concatenation_singleton]

/-- A builder that is computed on a literal text, and else applies its operator to the text and some
literals: its value is that of the operator in either case. -/
theorem eval_computed {op : ScalarOp} {kind : ValueKind} {shape : Shape}
    (others : List (Literal α)) {f : String → Literal α} (hop : op.isAggregate = false)
    (hnode : ∀ v : Option (Literal α), env.scalar op (v :: others.map some) =
      (v.bind Literal.text?).map f) :
    env.eval (match a.text? with
      | some s => .literal (f s)
      | none => Expr.scalar op kind shape (a :: others.map .literal)) = (env.text a).map f := by
  split
  · next s hs => rw [eq_text_of_text? hs, eval_literal, text_text, Option.map_some]
  · have hothers : (others.map Expr.literal).map env.eval = others.map some := by
      rw [List.map_map]
      exact List.map_congr_left fun v _ => env.eval_literal v
    rw [eval_scalar env hop, List.map_cons, hothers]
    exact hnode _

theorem eval_substringBefore (delimiter : String) : env.eval (a.substringBefore delimiter) =
    (env.text a).map fun s => .text (String.ofList (Text.before delimiter.toList s.toList)) :=
  env.eval_computed [.text delimiter] rfl fun _ => Option.map_eq_bind.symm

theorem eval_substringAfter (delimiter : String) : env.eval (a.substringAfter delimiter) =
    (env.text a).map fun s => .text (String.ofList (Text.after delimiter.toList s.toList)) :=
  env.eval_computed [.text delimiter] rfl fun _ => Option.map_eq_bind.symm

theorem eval_trim : env.eval a.trim = (env.text a).map fun s => .text (Text.trim s) :=
  env.eval_computed [] rfl fun _ => rfl

theorem eval_replace (pattern replacement : String) : env.eval (a.replace pattern replacement) =
    (env.text a).map fun s =>
      .text (String.ofList (Text.replace pattern.toList replacement.toList s.toList)) :=
  env.eval_computed [.text pattern, .text replacement] rfl fun _ => Option.map_eq_bind.symm

theorem eval_length :
    env.eval a.length = (env.text a).map fun s => .number (Coordinate.ofNat s.length) :=
  env.eval_computed [] rfl fun _ => rfl

/-- A literal text that denotes no number is left to the database. -/
theorem eval_toNumber : env.eval a.toNumber = ((env.text a).bind env.reading).map .number := by
  unfold toNumber
  split
  · next x hx =>
    obtain ⟨s, hs, hx⟩ := Option.bind_eq_some_iff.mp hx
    rw [eq_text_of_text? hs]
    simp [reading, hx]
  · rw [eval_scalar env rfl]
    rfl

/-- A number that a text does not have is a null. -/
theorem eval_ordinate (index : UInt32) : env.eval (a.ordinate index) =
    ((env.text a).bind fun s => ordinateOf? s index).map .number := by
  unfold ordinate
  split
  · next s hs =>
    rw [eq_text_of_text? hs, text_text, Option.bind_some]
    cases ordinateOf? (α := α) s index <;> simp
  · rw [eval_scalar env rfl]
    rfl

end Texts

/-- What a scalar builder returns has the value of its operator on the values of the operands:
arithmetic first, then comparisons, connectives and case distinctions, then texts. A connective and
a concatenation may return one of their operands, so they are read as truth values and texts. -/
theorem builders_keep_value (env : Environment α) :
    (∀ a b : Expr α, env.eval (a.plus b) =
      (Option.map₂ (fun x y => x + y) (env.number a) (env.number b)).map .number) ∧
    (∀ a b : Expr α, env.eval (a.minus b) =
      (Option.map₂ (fun x y => x - y) (env.number a) (env.number b)).map .number) ∧
    (∀ a b : Expr α, env.eval (a.times b) =
      (Option.map₂ (fun x y => x * y) (env.number a) (env.number b)).map .number) ∧
    (∀ a b : Expr α, env.eval (a.dividedBy b) =
      ((env.number a).bind fun x => (env.number b).bind (env.quotient x)).map .number) ∧
    (∀ a : Expr α, env.eval a.squared = (env.number a).map fun x => .number (x * x)) ∧
    (∀ a : Expr α, env.eval a.negate = (env.number a).map fun x => .number (-x)) ∧
    (∀ a : Expr α, env.eval a.sqrt = ((env.number a).bind env.root).map .number) ∧
    (∀ a b : Expr α, env.eval (a.least b) =
      (Option.map₂ Coordinate.least (env.number a) (env.number b)).map .number) ∧
    (∀ a b : Expr α, env.eval (a.greatest b) =
      (Option.map₂ Coordinate.greatest (env.number a) (env.number b)).map .number) ∧
    (∀ a b : Expr α, env.eval (a.isEqual b) = (env.compared Literal.equal? a b).map .bool) ∧
    (∀ a b : Expr α, env.eval (a.isNotEqual b) =
      (Truth.not (env.compared Literal.equal? a b)).map .bool) ∧
    (∀ a b : Expr α, env.eval (a.isLess b) = (env.compared Literal.less? a b).map .bool) ∧
    (∀ a b : Expr α, env.eval (a.isAtMost b) = (env.compared Literal.atMost? a b).map .bool) ∧
    (∀ a b : Expr α, env.eval (a.isGreater b) = (env.compared Literal.less? b a).map .bool) ∧
    (∀ a b : Expr α, env.eval (a.isAtLeast b) = (env.compared Literal.atMost? b a).map .bool) ∧
    (∀ a b : Expr α, env.truth (a.and b) = Truth.and (env.truth a) (env.truth b)) ∧
    (∀ a b : Expr α, env.truth (a.or b) = Truth.or (env.truth a) (env.truth b)) ∧
    (∀ a : Expr α, env.eval a.not = (Truth.not (env.truth a)).map .bool) ∧
    (∀ conditions : List (Expr α), env.truth (Expr.all conditions) =
      (conditions.map env.truth).foldl Truth.and (some true)) ∧
    (∀ conditions : List (Expr α), env.truth (Expr.any conditions) =
      (conditions.map env.truth).foldl Truth.or (some false)) ∧
    (∀ a b c : Expr α, env.eval (caseWhen a b c) =
      if env.truth a = some true then env.eval b else env.eval c) ∧
    (∀ a b : Expr α, env.text (concat a b) =
      Option.map₂ (fun s t => s ++ t) (env.text a) (env.text b)) ∧
    (∀ parts : List (Expr α), env.text (concatAll parts) = concatenation (parts.map env.text)) ∧
    (∀ (a : Expr α) (delimiter : String), env.eval (a.substringBefore delimiter) =
      (env.text a).map fun s => .text (String.ofList (Text.before delimiter.toList s.toList))) ∧
    (∀ (a : Expr α) (delimiter : String), env.eval (a.substringAfter delimiter) =
      (env.text a).map fun s => .text (String.ofList (Text.after delimiter.toList s.toList))) ∧
    (∀ a : Expr α, env.eval a.trim = (env.text a).map fun s => .text (Text.trim s)) ∧
    (∀ (a : Expr α) (pattern replacement : String), env.eval (a.replace pattern replacement) =
      (env.text a).map fun s =>
        .text (String.ofList (Text.replace pattern.toList replacement.toList s.toList))) ∧
    (∀ a : Expr α, env.eval a.length =
      (env.text a).map fun s => .number (Coordinate.ofNat s.length)) ∧
    (∀ a : Expr α, env.eval a.toText = (env.number a).map fun x => .text (Numeral.text x)) ∧
    (∀ a : Expr α, env.eval a.toNumber = ((env.text a).bind env.reading).map .number) ∧
    (∀ (a : Expr α) (index : UInt32), env.eval (a.ordinate index) =
      ((env.text a).bind fun s => ordinateOf? s index).map .number) :=
  ⟨fun _ _ => env.eval_plus, fun _ _ => env.eval_minus, fun _ _ => env.eval_times,
    fun _ _ => env.eval_dividedBy, fun _ => env.eval_squared, fun _ => env.eval_negate,
    fun _ => env.eval_sqrt, fun _ _ => env.eval_least, fun _ _ => env.eval_greatest,
    fun _ _ => env.eval_isEqual, fun _ _ => env.eval_isNotEqual, fun _ _ => env.eval_isLess,
    fun _ _ => env.eval_isAtMost, fun _ _ => env.eval_isGreater, fun _ _ => env.eval_isAtLeast,
    fun _ _ => env.truth_and, fun _ _ => env.truth_or, fun _ => env.eval_not, env.truth_all,
    env.truth_any, fun _ _ _ => env.eval_caseWhen, fun _ _ => env.text_concat, env.text_concatAll,
    fun _ => env.eval_substringBefore, fun _ => env.eval_substringAfter, fun _ => env.eval_trim,
    fun _ => env.eval_replace, fun _ => env.eval_length, fun _ => env.eval_toText,
    fun _ => env.eval_toNumber, fun _ => env.eval_ordinate⟩

end Environment

end SpatialSql
