import SpatialSql.Proofs.Sql.Trace
import SpatialSql.Compile

/-!
# Renderers that keep texts spanning

What a renderer has to guarantee about its spellings so that everything compiled with it
spans, and what follows for the forms that are built from them: the walks through
well-known text, the scalar operators and the rebased operands. The only spelling that
may show a blank is a negated equality, in the dialects that negate it by a prefix.
-/

namespace SpatialSql.Sql

variable {q : Quoting}

/-- The spellings of text primitives close what they open. -/
structure TidyText (q : Quoting) (forms : TextForms) : Prop where
  literal : ∀ text, Spans q false (forms.literal text)
  concat : ∀ {parts}, (∀ part ∈ parts, Inner q part) → Spans q false (forms.concat parts)
  position : ∀ {needle text}, Inner q needle → Inner q text →
    Spans q false (forms.position needle text)
  substring : ∀ {text start length?}, Inner q text → Inner q start → (∀ n ∈ length?, Inner q n) →
    Spans q false (forms.substring text start length?)
  length : ∀ {text}, Inner q text → Spans q false (forms.length text)
  trim : ∀ {text}, Inner q text → Spans q false (forms.trim text)
  replace : ∀ {text pattern replacement}, Inner q text → Inner q pattern → Inner q replacement →
    Spans q false (forms.replace text pattern replacement)
  toNumber : ∀ {text}, Inner q text → Spans q false (forms.toNumber text)

/-- A call whose last argument may be left out. -/
theorem spans_call_optional {function text start : String} {length? : Option String}
    (hf : closes q (function ++ "(") [")"] = true) (ht : Inner q text) (hs : Inner q start)
    (hl : ∀ n ∈ length?, Inner q n) :
    Spans q false (call function ([text, start] ++ length?.toList)) := by
  refine spans_call hf fun arg harg => ?_
  rcases List.mem_append.mp harg with harg | harg
  · rcases List.mem_pair.mp harg with rfl | rfl
    · exact ht
    · exact hs
  · exact hl arg (Option.mem_toList.mp harg)

/-- The spellings of standard SQL. -/
theorem tidyText_standard : TidyText q {} where
  literal := spans_enclosed (by cases q <;> rfl)
  concat hp := by
    have hbars : Glue q true " || " := glue_of_glues (by cases q <;> decide)
    exact spans_fill "(" [")"] (by cases q <;> decide) [_] rfl (inner_intercalate hbars hp)
  position hn ht :=
    spans_fill "POSITION(" [" IN ", ")"] (by cases q <;> decide) [_, _] rfl ⟨hn, ht⟩
  substring := by
    intro text start length? ht hs hl
    cases length? with
    | none =>
      exact spans_fill "SUBSTRING(" [" FROM ", ")"] (by cases q <;> decide) [_, _] rfl ⟨ht, hs⟩
    | some n =>
      exact spans_fill "SUBSTRING(" [" FROM ", " FOR ", ")"] (by cases q <;> decide) [_, _, _] rfl
        ⟨ht, hs, hl n rfl⟩
  length ht := spans_fill "LENGTH(" [")"] (by cases q <;> decide) [_] rfl ht
  trim ht := spans_fill "TRIM(" [")"] (by cases q <;> decide) [_] rfl ht
  replace ht hp hr :=
    spans_fill "REPLACE(" [", ", ", ", ")"] (by cases q <;> decide) [_, _, _] rfl ⟨ht, hp, hr⟩
  toNumber ht := spans_fill "CAST(" [" AS DOUBLE PRECISION)"] (by cases q <;> decide) [_] rfl ht

theorem spans_boolean (value : Bool) : Spans q false (if value then "TRUE" else "FALSE") := by
  cases value <;> exact spans_of_closes (by cases q <;> decide)

theorem spans_sqrt {number : String} (hn : Inner q number) :
    Spans q false ("SQRT(" ++ number ++ ")") :=
  spans_fill "SQRT(" [")"] (by cases q <;> decide) [_] rfl hn

theorem spans_least {a b : String} (ha : Inner q a) (hb : Inner q b) :
    Spans q false ("LEAST(" ++ a ++ ", " ++ b ++ ")") :=
  spans_fill "LEAST(" [", ", ")"] (by cases q <;> decide) [_, _] rfl ⟨ha, hb⟩

theorem spans_greatest {a b : String} (ha : Inner q a) (hb : Inner q b) :
    Spans q false ("GREATEST(" ++ a ++ ", " ++ b ++ ")") :=
  spans_fill "GREATEST(" [", ", ")"] (by cases q <;> decide) [_, _] rfl ⟨ha, hb⟩

namespace TidyText

variable {forms : TextForms} {text delimiter : String}

/-- The text before a delimiter is cut at its position. -/
theorem before (h : TidyText q forms) (ht : Inner q text) (hd : Inner q delimiter) :
    Spans q false (forms.before text delimiter) := by
  have hminus : Glue q true " - " := glue_of_glues (by cases q <;> decide)
  have hone : Inner q "1" := (spans_of_closes (by cases q <;> decide)).inner
  have hfound := (h.position hd ht).inner
  have hcount : Inner q (forms.position delimiter text ++ " - 1") := by
    rw [show " - 1" = " - " ++ "1" from rfl, ← String.append_assoc]
    exact hfound.glue hminus hone
  have hpart : Spans q false (forms.substring text "1" (some _)) :=
    h.substring ht hone (by rintro n ⟨rfl⟩; exact hcount)
  exact spans_fill "CASE WHEN " [" > 0 THEN ", " ELSE '' END"] (by cases q <;> decide) [_, _] rfl
    ⟨hfound, hpart.inner⟩

/-- The text behind a delimiter starts at its position and length. -/
theorem after (h : TidyText q forms) (ht : Inner q text) (hd : Inner q delimiter) :
    Spans q false (forms.after text delimiter) := by
  have hplus : Glue q true " + " := glue_of_glues (by cases q <;> decide)
  have hfound := (h.position hd ht).inner
  have hpart : Spans q false (forms.substring text _ none) :=
    h.substring ht (hfound.glue hplus (h.length hd).inner) (by simp)
  exact spans_fill "CASE WHEN " [" > 0 THEN ", " ELSE ", " END"] (by cases q <;> decide) [_, _, _]
    rfl ⟨hfound, hpart.inner, ht⟩

/-- Words are skipped by cutting behind a blank, once for each. -/
theorem skipWords (h : TidyText q forms) (n : Nat) (ht : Inner q text) :
    Inner q (forms.skipWords (forms.literal " ") n text) := by
  induction n generalizing text with
  | zero => exact ht
  | succ n ih => exact ih (h.trim (h.after ht (h.literal " ").inner).inner).inner

/-- A number is cut out of a text and cast. -/
theorem ordinate (h : TidyText q forms) (index : UInt32) (ht : Inner q text) :
    Spans q false (forms.ordinate text index) := by
  have hspace := (h.literal " ").inner
  have hmark (mark : String) {body : String} (hb : Inner q body) :
      Inner q (forms.replace body (forms.literal mark) (forms.literal " ")) :=
    (h.replace hb (h.literal mark).inner hspace).inner
  have hbody := (h.after ht (h.literal "(").inner).inner
  have hword := h.skipWords index.toNat (h.trim (hmark "," (hmark ")" (hmark "(" hbody)))).inner
  have hpadded : ∀ part ∈ [_, forms.literal " "], Inner q part :=
    List.forall_mem_cons.mpr ⟨hword, List.forall_mem_singleton.mpr hspace⟩
  exact h.toNumber (h.before (h.concat hpadded).inner hspace).inner

end TidyText

/-- A rendered operand. In a dialect that negates by a prefix it may show a blank, so that only brackets
around it make it safe; in the others it is safe anywhere. -/
def Operand (q : Quoting) : Bool → String → Prop
  | true, text => Inner q text
  | false, text => Spans q false text

/-- An operand is harmless where something stands open around it. -/
theorem Operand.inner {negates : Bool} {text : String} (h : Operand q negates text) :
    Inner q text := by
  cases negates with
  | true => exact h
  | false => exact Spans.inner h

/-- What is delimited may stand as an operand. -/
theorem operand_of_spans {negates : Bool} {text : String} (h : Spans q false text) :
    Operand q negates text := by
  cases negates with
  | true => exact h.inner
  | false => exact h

variable {α : Type}

/-- The spellings of a renderer close what they open. Only a lowered inequality may show a blank, where
the renderer negates by a prefix. -/
structure Tidy (q : Quoting) (negates : Bool) (r : Renderer α) : Prop
    extends TidyText q r.toTextForms where
  identifier : ∀ name, Spans q false (r.identifier name)
  number : ∀ x, Spans q false (r.number x)
  boolean : ∀ value, Spans q false (r.boolean value)
  substringBefore : ∀ {text delimiter}, Inner q text → Inner q delimiter →
    Spans q false (r.substringBefore text delimiter)
  substringAfter : ∀ {text delimiter}, Inner q text → Inner q delimiter →
    Spans q false (r.substringAfter text delimiter)
  ordinate : ∀ index {text}, Inner q text → Spans q false (r.ordinate text index)
  toText : ∀ {number}, Inner q number → Spans q false (r.toText number)
  sqrt : ∀ {number}, Inner q number → Spans q false (r.sqrt number)
  least : ∀ {a b}, Inner q a → Inner q b → Spans q false (r.least a b)
  greatest : ∀ {a b}, Inner q a → Inner q b → Spans q false (r.greatest a b)
  geometryLiteral : ∀ kind wkt, Spans q false (r.geometryLiteral kind wkt)
  geometryFromText : ∀ kind {text}, Operand q negates text →
    Spans q false (r.geometryFromText kind text)
  lower : ∀ {kind op args sql}, (∀ arg ∈ args, Operand q negates arg) →
    r.lower kind op args = some sql → Spans q (negates && op == .notEquals) sql

namespace Tidy

variable {negates : Bool} {r : Renderer α}

/-- A column is quoted part by part. -/
theorem columnSql (h : Tidy q negates r) (c : Column) : Spans q false (r.columnSql c) :=
  (h.identifier _).glue glue_dot (h.identifier _)

/-- An operand in a null test. -/
theorem nullTestSql {subject : String} (hs : Inner q subject) :
    Spans q false (Renderer.nullTestSql subject) :=
  spans_fill "(" [" IS NULL)"] (by cases q <;> decide) [_] rfl hs

/-- Operands between parentheses, with an operator of the language between them. -/
theorem infixSql {a b symbol : String} (hs : closes q symbol [] = true) (ha : Inner q a)
    (hb : Inner q b) : Spans q false ("(" ++ a ++ " " ++ symbol ++ " " ++ b ++ ")") :=
  spans_fill "(" [" ", " ", ")"] (by cases q <;> decide) [_, _, _] rfl
    ⟨ha, (spans_of_closes hs).inner, hb⟩

/-- A scalar operator is written as a call or in parentheses. -/
theorem scalarSql (h : Tidy q negates r) (op : ScalarOp) {args : List String}
    (ha : ∀ arg ∈ args, Inner q arg) : Spans q false (r.scalarSql op args) := by
  have harg (i : Nat) : Inner q (args[i]?.getD "NULL") := by
    cases hi : args[i]? with
    | none => exact (spans_of_closes (by cases q <;> decide)).inner
    | some arg => exact ha arg (List.mem_of_getElem? hi)
  cases op
  case negate => exact spans_fill "(- " [")"] (by cases q <;> decide) [_] rfl (harg 0)
  case squareRoot => exact h.sqrt (harg 0)
  case least => exact h.least (harg 0) (harg 1)
  case greatest => exact h.greatest (harg 0) (harg 1)
  case not => exact spans_fill "(NOT " [")"] (by cases q <;> decide) [_] rfl (harg 0)
  case isNull => exact nullTestSql (harg 0)
  case isNotNull =>
    exact spans_fill "(" [" IS NOT NULL)"] (by cases q <;> decide) [_] rfl (harg 0)
  case case =>
    exact spans_fill "CASE WHEN " [" THEN ", " ELSE ", " END"] (by cases q <;> decide) [_, _, _] rfl
      ⟨harg 0, harg 1, harg 2⟩
  case concat => exact h.concat ha
  case numberToText => exact h.toText (harg 0)
  case textToNumber => exact h.toNumber (harg 0)
  case length => exact h.length (harg 0)
  case trim => exact h.trim (harg 0)
  case replace => exact h.replace (harg 0) (harg 1) (harg 2)
  case substringBefore => exact h.substringBefore (harg 0) (harg 1)
  case substringAfter => exact h.substringAfter (harg 0) (harg 1)
  case ordinate index => exact h.ordinate index (harg 0)
  case min => exact spans_fill "MIN(" [")"] (by cases q <;> decide) [_] rfl (harg 0)
  case max => exact spans_fill "MAX(" [")"] (by cases q <;> decide) [_] rfl (harg 0)
  case count => exact spans_fill "COUNT(" [")"] (by cases q <;> decide) [_] rfl (harg 0)
  all_goals exact infixSql (by cases q <;> decide) (harg 0) (harg 1)

variable [Numeral α]

/-- A literal is quoted, a number or a call. -/
theorem literalSql (h : Tidy q negates r) (value : Literal α) :
    Spans q false (r.literalSql value) := by
  cases value with
  | bool value => exact h.boolean value
  | number value => exact h.number value
  | text value => exact h.literal value
  | point p => exact h.geometryLiteral .point _
  | line l => exact h.geometryLiteral .line _
  | segment s => exact h.geometryLiteral .segment _
  | multiPoint m => exact h.geometryLiteral .multiPoint _
  | polygon p => exact h.geometryLiteral .polygon _

/-- An index that counts from another base is a number or a sum in parentheses. -/
theorem rebasedIndex (h : Tidy q negates r) (index : Expr α) {sql : String}
    (hs : Operand q negates sql) : Operand q negates (r.rebasedIndex index sql) := by
  unfold Renderer.rebasedIndex
  split
  · exact hs
  · split
    · exact operand_of_spans (h.number _)
    · exact operand_of_spans (spans_fill "(" [" + ", ")"] (by cases q <;> decide) [_, _] rfl
        ⟨hs.inner, (h.number _).inner⟩)

/-- Of the operands only an index is changed. -/
theorem rebased (h : Tidy q negates r) (op : SpatialOp) (operands : List (Expr α))
    {args : List String} (ha : ∀ arg ∈ args, Operand q negates arg) :
    ∀ arg ∈ r.rebased op operands args, Operand q negates arg := by
  unfold Renderer.rebased
  split
  · simp only [List.forall_mem_cons] at ha ⊢
    exact ⟨ha.1, h.rebasedIndex _ ha.2.1, ha.2.2⟩
  · exact ha

end Tidy

end SpatialSql.Sql
