import SpatialSql.Proofs.Decimal.Equality
import SpatialSql.Proofs.Meaning.Folding
import Mathlib.Data.List.Forall2

/-!
# Equal expressions have equal values

Expressions are compared node by node, and the numbers in them as numbers: a zero equals the
zero of the other sign. So expressions that compare equal need not be the same, and neither
need their values; these are alike, number by number. Every scalar operator takes values that
are alike to values that are alike, and of what a database brings as much is asked as the
expressions apply.
-/

namespace SpatialSql

open Decimal

namespace Expr

variable {α : Type}

mutual

/-- The operators that are applied in an expression, with repetitions. -/
def operators : Expr α → List Op
  | literal _ | column _ | absent _ => []
  | node op _ _ operands _ => op :: operatorsAll operands

/-- The operators that are applied in a list of expressions. -/
def operatorsAll : List (Expr α) → List Op
  | [] => []
  | e :: rest => operators e ++ operatorsAll rest

end

/-- The operators of a node are its own and those of the operands. -/
theorem operators_node (op : Op) (kind : ValueKind) (shape : Shape) (operands : List (Expr α))
    (guarded : Bool) :
    (node op kind shape operands guarded).operators = op :: operatorsAll operands := by
  rw [operators]

theorem operatorsAll_cons (e : Expr α) (rest : List (Expr α)) :
    operatorsAll (e :: rest) = e.operators ++ operatorsAll rest := by
  rw [operatorsAll]

end Expr

/-- The coordinates of two points are alike. -/
def Point.Alike (p q : Point Float) : Prop := Decimal.Alike p.x q.x ∧ Decimal.Alike p.y q.y

/-- Literals of the same form, with numbers that are alike. -/
inductive Literal.Alike : Literal Float → Literal Float → Prop
  | bool (p : Bool) : Alike (.bool p) (.bool p)
  | number {x y : Float} (h : Decimal.Alike x y) : Alike (.number x) (.number y)
  | text (s : String) : Alike (.text s) (.text s)
  | point {p q : Point Float} (h : p.Alike q) : Alike (.point p) (.point q)
  | line {l m : Line Float} (h : List.Forall₂ Point.Alike l.points m.points) :
      Alike (.line l) (.line m)
  | segment {s t : Segment Float} (hs : s.start.Alike t.start) (ht : s.stop.Alike t.stop) :
      Alike (.segment s) (.segment t)
  | multiPoint {l m : MultiPoint Float} (h : List.Forall₂ Point.Alike l.points m.points) :
      Alike (.multiPoint l) (.multiPoint m)
  | polygon {l m : Polygon Float} (h : List.Forall₂ Point.Alike l.ring m.ring) :
      Alike (.polygon l) (.polygon m)

/-- Points are compared coordinate by coordinate. -/
theorem Point.beq_eq (p q : Point Float) : (p == q) = (p.x == q.x && p.y == q.y) := rfl

namespace Point.Alike

theorem refl (p : Point Float) : p.Alike p := ⟨.refl p.x, .refl p.y⟩

theorem refl_all (points : List (Point Float)) : List.Forall₂ Point.Alike points points :=
  List.forall₂_same.mpr fun p _ => refl p

/-- Points that compare equal are alike. -/
theorem of_beq {p q : Point Float} (h : (p == q) = true) : p.Alike q := by
  rw [Point.beq_eq, Bool.and_eq_true] at h
  exact ⟨.inr h.1, .inr h.2⟩

/-- So are lists of points that compare equal. -/
theorem of_beq_all {l m : List (Point Float)} (h : (l == m) = true) :
    List.Forall₂ Point.Alike l m := by
  induction l generalizing m with
  | nil =>
    cases m with
    | nil => exact .nil
    | cons q m => cases h
  | cons p l ih =>
    cases m with
    | nil => cases h
    | cons q m =>
      rw [List.cons_beq_cons, Bool.and_eq_true] at h
      exact .cons (of_beq h.1) (ih h.2)

end Point.Alike

namespace Literal.Alike

variable {v v' w w' : Literal Float}

theorem refl (v : Literal Float) : v.Alike v := by
  cases v with
  | bool p => exact .bool p
  | number x => exact .number (.refl x)
  | text s => exact .text s
  | point p => exact .point (.refl p)
  | line l => exact .line (Point.Alike.refl_all l.points)
  | segment s => exact .segment (.refl s.start) (.refl s.stop)
  | multiPoint m => exact .multiPoint (Point.Alike.refl_all m.points)
  | polygon p => exact .polygon (Point.Alike.refl_all p.ring)

/-- Literals that compare equal are alike. -/
theorem of_beq (h : (v == w) = true) : v.Alike w := by
  cases v with
  | bool p =>
    cases w with
    | bool q => exact eq_of_beq (α := Bool) h ▸ .bool p
    | _ => cases h
  | number x =>
    cases w with
    | number y => exact .number (.inr h)
    | _ => cases h
  | text s =>
    cases w with
    | text t => exact eq_of_beq (α := String) h ▸ .text s
    | _ => cases h
  | point p =>
    cases w with
    | point q => exact .point (.of_beq h)
    | _ => cases h
  | line l =>
    cases w with
    | line m => exact .line (Point.Alike.of_beq_all h)
    | _ => cases h
  | segment s =>
    cases w with
    | segment t =>
      have hparts : (s.start == t.start && s.stop == t.stop) = true := h
      rw [Bool.and_eq_true] at hparts
      exact .segment (.of_beq hparts.1) (.of_beq hparts.2)
    | _ => cases h
  | multiPoint l =>
    cases w with
    | multiPoint m => exact .multiPoint (Point.Alike.of_beq_all h)
    | _ => cases h
  | polygon l =>
    cases w with
    | polygon m => exact .polygon (Point.Alike.of_beq_all h)
    | _ => cases h

theorem bool?_eq (h : v.Alike w) : v.bool? = w.bool? := by
  cases h <;> rfl

theorem text?_eq (h : v.Alike w) : v.text? = w.text? := by
  cases h <;> rfl

/-- Literals that are alike are numbers that are alike, or neither is a number. -/
theorem rel_number? (h : v.Alike w) : Option.Rel Decimal.Alike v.number? w.number? := by
  cases h with
  | number h => exact .some h
  | _ => exact .none

/-- A test that cannot tell numbers apart that are alike cannot tell literals apart that are. -/
theorem test?_eq {onNumbers : Float → Float → Bool} {onTexts : String → String → Bool}
    {onTruths : Bool → Bool → Bool}
    (hn : ∀ {x x' y y' : Float}, Decimal.Alike x x' → Decimal.Alike y y' →
      onNumbers x y = onNumbers x' y')
    (hv : v.Alike v') (hw : w.Alike w') :
    test? onNumbers onTexts onTruths v w = test? onNumbers onTexts onTruths v' w' := by
  cases hv with
  | number hx =>
    cases hw with
    | number hy => exact congrArg some (hn hx hy)
    | _ => rfl
  | _ => cases hw <;> rfl

theorem equal?_eq (hv : v.Alike v') (hw : w.Alike w') : equal? v w = equal? v' w' :=
  test?_eq (fun hx hy => hx.beq_eq hy) hv hw

theorem less?_eq (hv : v.Alike v') (hw : w.Alike w') : less? v w = less? v' w' :=
  test?_eq (fun hx hy => decide_eq_decide.mpr (hx.lt_iff hy)) hv hw

theorem atMost?_eq (hv : v.Alike v') (hw : w.Alike w') : atMost? v w = atMost? v' w' :=
  test?_eq (fun hx hy => decide_eq_decide.mpr (hx.le_iff hy)) hv hw

end Literal.Alike

/-- Values that are the same are alike. -/
theorem rel_of_eq {v w : Option (Literal Float)} (h : v = w) : Option.Rel Literal.Alike v w := by
  subst h
  cases v with
  | none => exact .none
  | some v => exact .some (.refl v)

/-- The part of an environment that a database decides takes values that are alike to values that are
alike, wherever one of the given operators is applied. -/
structure Environment.Extensional (env : Environment Float) (applied : Op → Prop) : Prop where
  spatial : ∀ (kind : GeometryKind) (op : SpatialOp), applied (.spatial kind op) →
    ∀ {args args' : List (Option (Literal Float))},
      List.Forall₂ (Option.Rel Literal.Alike) args args' →
        Option.Rel Literal.Alike (env.spatial kind op args) (env.spatial kind op args')
  aggregate : ∀ op : ScalarOp, applied (.scalar op) → op.isAggregate = true →
    ∀ {operands operands' : List (Expr Float)}, Expr.sameAll operands operands' = true →
      Option.Rel Literal.Alike (env.aggregate op operands) (env.aggregate op operands')
  quotientByZero : applied (.scalar .divide) → ∀ {x x' : Float}, Decimal.Alike x x' →
    Option.Rel Decimal.Alike (env.quotientByZero x) (env.quotientByZero x')
  rootBelowZero : applied (.scalar .squareRoot) → ∀ {x x' : Float}, Decimal.Alike x x' →
    Option.Rel Decimal.Alike (env.rootBelowZero x) (env.rootBelowZero x')

namespace Environment

section Numbers

variable {γ : Type} {R : γ → γ → Prop} {p p' q q' : Option Float}

/-- What is computed from numbers that are alike is alike, null if they are. -/
theorem rel_map {f : Float → γ} (hf : ∀ {x x' : Float}, Decimal.Alike x x' → R (f x) (f x'))
    (hp : Option.Rel Decimal.Alike p p') : Option.Rel R (p.map f) (p'.map f) := by
  cases hp with
  | none => exact .none
  | some hx => exact .some (hf hx)

/-- The same for what may be null itself. -/
theorem rel_bind {f f' : Float → Option γ}
    (hf : ∀ {x x' : Float}, Decimal.Alike x x' → Option.Rel R (f x) (f' x'))
    (hp : Option.Rel Decimal.Alike p p') : Option.Rel R (p.bind f) (p'.bind f') := by
  cases hp with
  | none => exact .none
  | some hx => exact hf hx

/-- The same for two numbers. -/
theorem rel_map₂ {f : Float → Float → γ}
    (hf : ∀ {x x' y y' : Float}, Decimal.Alike x x' → Decimal.Alike y y' → R (f x y) (f x' y'))
    (hp : Option.Rel Decimal.Alike p p') (hq : Option.Rel Decimal.Alike q q') :
    Option.Rel R (Option.map₂ f p q) (Option.map₂ f p' q') := by
  cases hp with
  | none => exact .none
  | some hx =>
    cases hq with
    | none => exact .none
    | some hy => exact .some (hf hx hy)

end Numbers

section Values

variable {v v' w w' : Option (Literal Float)}

theorem bind_bool?_eq (hv : Option.Rel Literal.Alike v v') :
    v.bind Literal.bool? = v'.bind Literal.bool? := by
  cases hv with
  | none => rfl
  | some hv => exact hv.bool?_eq

theorem bind_text?_eq (hv : Option.Rel Literal.Alike v v') :
    v.bind Literal.text? = v'.bind Literal.text? := by
  cases hv with
  | none => rfl
  | some hv => exact hv.text?_eq

/-- Values that are alike give numbers that are alike. -/
theorem rel_bind_number? (hv : Option.Rel Literal.Alike v v') :
    Option.Rel Decimal.Alike (v.bind Literal.number?) (v'.bind Literal.number?) := by
  cases hv with
  | none => exact .none
  | some hv => exact hv.rel_number?

/-- A null is alike only to a null. -/
theorem isNone_eq (hv : Option.Rel Literal.Alike v v') : v.isNone = v'.isNone := by
  cases hv with
  | none => rfl
  | some _ => rfl

/-- A test that cannot tell literals apart that are alike cannot tell values apart that are. -/
theorem bind_test_eq {test : Literal Float → Literal Float → Option Bool}
    (ht : ∀ {a a' b b' : Literal Float}, a.Alike a' → b.Alike b' → test a b = test a' b')
    (hv : Option.Rel Literal.Alike v v') (hw : Option.Rel Literal.Alike w w') :
    (v.bind fun a => w.bind fun b => test a b) = v'.bind fun a => w'.bind fun b => test a b := by
  cases hv with
  | none => rfl
  | some ha =>
    cases hw with
    | none => rfl
    | some hb => exact ht ha hb

end Values

namespace Extensional

variable {env : Environment Float} {applied : Op → Prop} {x x' y y' : Float}

/-- Quotients of numbers that are alike are alike; that by zero is the database's. -/
theorem quotient (he : env.Extensional applied) (ho : applied (.scalar .divide))
    (hx : Decimal.Alike x x') (hy : Decimal.Alike y y') :
    Option.Rel Decimal.Alike (env.quotient x y) (env.quotient x' y') := by
  have hzero : (y == Coordinate.zero) = (y' == Coordinate.zero) := hy.beq_eq (.refl _)
  unfold Environment.quotient
  rw [hzero]
  cases h : y' == Coordinate.zero with
  | true => exact he.quotientByZero ho hx
  | false => exact .some (hx.div hy (hzero.trans h))

/-- Roots of numbers that are alike are alike; that of a negative one is the database's. -/
theorem root (he : env.Extensional applied) (ho : applied (.scalar .squareRoot))
    (hx : Decimal.Alike x x') :
    Option.Rel Decimal.Alike (env.root x) (env.root x') := by
  have hzero : Coordinate.atMost Coordinate.zero x = Coordinate.atMost Coordinate.zero x' :=
    decide_eq_decide.mpr (Decimal.Alike.le_iff (.refl _) hx)
  unfold Environment.root
  rw [hzero]
  cases Coordinate.atMost Coordinate.zero x' with
  | true => exact .some hx.sqrt
  | false => exact he.rootBelowZero ho hx

variable {args args' : List (Option (Literal Float))}

/-- Operands that are alike are so at each position. -/
theorem rel_arg (h : List.Forall₂ (Option.Rel Literal.Alike) args args') (i : Nat) :
    Option.Rel Literal.Alike (args[i]?.join) (args'[i]?.join) := by
  induction h generalizing i with
  | nil => exact .none
  | cons hv _ ih =>
    cases i with
    | zero => exact hv
    | succ i => exact ih i

/-- Operands that are alike have the same texts. -/
theorem map_text?_eq (h : List.Forall₂ (Option.Rel Literal.Alike) args args') :
    (args.map fun v => v.bind Literal.text?) = args'.map fun v => v.bind Literal.text? := by
  induction h with
  | nil => rfl
  | cons hv _ ih => rw [List.map_cons, List.map_cons, bind_text?_eq hv, ih]

/-- An operator gives values that are alike on values that are alike. -/
theorem scalar (he : env.Extensional applied) (op : ScalarOp) (ho : applied (.scalar op))
    (h : List.Forall₂ (Option.Rel Literal.Alike) args args') :
    Option.Rel Literal.Alike (env.scalar op args) (env.scalar op args') := by
  have harg := rel_arg h
  have htruth (i : Nat) := bind_bool?_eq (harg i)
  have hnumber (i : Nat) := rel_bind_number? (harg i)
  have htext (i : Nat) := bind_text?_eq (harg i)
  have hcompared {test : Literal Float → Literal Float → Option Bool}
      (ht : ∀ {a a' b b' : Literal Float}, a.Alike a' → b.Alike b' → test a b = test a' b')
      (i j : Nat) := congrArg (Option.map (Literal.bool (α := Float)))
        (bind_test_eq ht (harg i) (harg j))
  cases op with
  | add => exact rel_map .number (rel_map₂ Decimal.Alike.add (hnumber 0) (hnumber 1))
  | subtract => exact rel_map .number (rel_map₂ Decimal.Alike.sub (hnumber 0) (hnumber 1))
  | multiply => exact rel_map .number (rel_map₂ Decimal.Alike.mul (hnumber 0) (hnumber 1))
  | least => exact rel_map .number (rel_map₂ Decimal.Alike.lesser (hnumber 0) (hnumber 1))
  | greatest => exact rel_map .number (rel_map₂ Decimal.Alike.larger (hnumber 0) (hnumber 1))
  | divide =>
    have hq := rel_bind (fun hx => rel_bind (he.quotient ho hx) (hnumber 1)) (hnumber 0)
    exact rel_map .number hq
  | squareRoot => exact rel_map .number (rel_bind (he.root ho) (hnumber 0))
  | negate => exact rel_map (fun hx => .number hx.neg) (hnumber 0)
  | numberToText =>
    refine rel_map (fun {x x'} hx => ?_) (hnumber 0)
    change (Literal.text (coordinateText x)).Alike (.text (coordinateText x'))
    rw [hx.coordinateText_eq]
    exact .text _
  | equals => exact rel_of_eq (hcompared Literal.Alike.equal?_eq 0 1)
  | lessThan => exact rel_of_eq (hcompared Literal.Alike.less?_eq 0 1)
  | lessThanOrEqual => exact rel_of_eq (hcompared Literal.Alike.atMost?_eq 0 1)
  | greaterThan => exact rel_of_eq (hcompared Literal.Alike.less?_eq 1 0)
  | greaterThanOrEqual => exact rel_of_eq (hcompared Literal.Alike.atMost?_eq 1 0)
  | notEquals =>
    have ht := bind_test_eq Literal.Alike.equal?_eq (harg 0) (harg 1)
    exact rel_of_eq (congrArg (fun p => (Truth.not p).map Literal.bool) ht)
  | isNull => exact rel_of_eq (congrArg (fun p => some (Literal.bool p)) (isNone_eq (harg 0)))
  | isNotNull =>
    exact rel_of_eq (by simp only [Environment.scalar, ← Option.not_isNone, isNone_eq (harg 0)])
  | case =>
    simp only [Environment.scalar, htruth]
    split
    · exact harg 1
    · exact harg 2
  | concat =>
    exact rel_of_eq (congrArg (fun ts => (concatenation ts).map Literal.text) (map_text?_eq h))
  | and | or | not => exact rel_of_eq (by simp only [Environment.scalar, htruth])
  | textToNumber | length | trim | replace | substringBefore | substringAfter | ordinate _ =>
    exact rel_of_eq (by simp only [Environment.scalar, htext])
  | min | max | count => exact .none

mutual

/-- Expressions that compare equal have values that are alike. -/
theorem eval (he : env.Extensional applied) (a b : Expr Float) (ha : ∀ op ∈ a.operators, applied op)
    (h : a.same b = true) :
    Option.Rel Literal.Alike (env.eval a) (env.eval b) := by
  cases a with
  | literal v =>
    cases b with
    | literal w =>
      rw [eval_literal, eval_literal]
      exact .some (.of_beq h)
    | _ => cases h
  | column c =>
    cases b with
    | column d => exact rel_of_eq (congrArg (fun c => env.eval (.column c)) (of_decide_eq_true h))
    | _ => cases h
  | absent k =>
    cases b with
    | absent l => exact rel_of_eq (by rw [eval_absent, eval_absent])
    | _ => cases h
  | node op kind shape operands guarded =>
    cases b with
    | node op' kind' shape' operands' guarded' =>
      simp only [Expr.same, Bool.and_eq_true, decide_eq_true_eq, beq_iff_eq] at h
      obtain ⟨⟨⟨⟨rfl, rfl⟩, rfl⟩, hsame⟩, rfl⟩ := h
      rw [Expr.operators_node, List.forall_mem_cons] at ha
      have hvalues := evalAll he operands operands' ha.2 hsame
      cases op with
      | scalar op =>
        rw [Environment.eval, Environment.eval]
        split
        · next hgroup => exact he.aggregate op ha.1 hgroup hsame
        · exact he.scalar op ha.1 hvalues
      | spatial geometry op =>
        cases guarded with
        | true =>
          rw [Environment.eval, Environment.eval, List.head?_eq_getElem?, List.head?_eq_getElem?,
            isNone_eq (rel_arg hvalues 0)]
          exact rel_of_eq rfl
        | false =>
          rw [Environment.eval, Environment.eval]
          exact he.spatial geometry op ha.1 hvalues
    | _ => cases h

/-- Operands that compare equal have values that are alike. -/
theorem evalAll (he : env.Extensional applied) (as bs : List (Expr Float))
    (ha : ∀ op ∈ Expr.operatorsAll as, applied op) (h : Expr.sameAll as bs = true) :
    List.Forall₂ (Option.Rel Literal.Alike) (env.evalAll as) (env.evalAll bs) := by
  cases as with
  | nil =>
    cases bs with
    | nil =>
      rw [Environment.evalAll]
      exact .nil
    | cons b bs => cases h
  | cons a as =>
    cases bs with
    | nil => cases h
    | cons b bs =>
      simp only [Expr.sameAll, Bool.and_eq_true] at h
      rw [Expr.operatorsAll_cons, List.forall_mem_append] at ha
      rw [Environment.evalAll, Environment.evalAll]
      exact .cons (eval he a b ha.1 h.1) (evalAll he as bs ha.2 h.2)

end

end Extensional

end Environment

end SpatialSql
