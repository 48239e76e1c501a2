import SpatialSql.Proofs.Geometry.Members
import SpatialSql.Proofs.Meaning.Counting

/-!
# The portable formulas for collections and rings that are stored as text

A dialect without a spatial type stores geometries as well-known text. The formulas that count the
members of a collection, take one of them, connect them by a line or take the ring of a polygon then
edit that text. Evaluated in a row that holds the text of a geometry, they come to what the operation
gives on the geometry itself, with one exception: a collection without members is counted as one
member.
-/

namespace SpatialSql

namespace Environment

open SpatialSql.Expr SpatialSql.Emulation

variable {α : Type} [Numeral α] {env : Environment α} {value? : α → Option ℚ}

section Known

variable {a b : Expr α} {s : String} {x y : α}

theorem text_trim (ha : env.text a = some s) : env.text a.trim = some (Text.trim s) :=
  text_of_eval (by rw [eval_trim, ha]; rfl)

theorem text_substringBefore (ha : env.text a = some s) (delimiter : String) :
    env.text (a.substringBefore delimiter) =
      some (String.ofList (Text.before delimiter.toList s.toList)) :=
  text_of_eval (by rw [eval_substringBefore, ha]; rfl)

theorem text_substringAfter (ha : env.text a = some s) (delimiter : String) :
    env.text (a.substringAfter delimiter) =
      some (String.ofList (Text.after delimiter.toList s.toList)) :=
  text_of_eval (by rw [eval_substringAfter, ha]; rfl)

/-- Members are dropped one comma at a time. -/
theorem text_skipMembers (ha : env.text a = some s) (n : ℕ) :
    env.text (skipMembers n a) = some (String.ofList ((Text.after [','])^[n] s.toList)) := by
  induction n generalizing a s with
  | zero =>
    rw [skipMembers, ha, Function.iterate_zero_apply, String.ofList_toList]
  | succ n ih =>
    rw [skipMembers, ih (text_substringAfter ha ","), String.toList_ofList,
      Function.iterate_succ_apply]
    rfl

theorem truth_isLess (ha : env.number a = some x) (hb : env.number b = some y) :
    env.truth (a.isLess b) = some (Coordinate.less x y) :=
  truth_of_eval (by rw [eval_isLess, compared, eval_of_number ha, eval_of_number hb]; rfl)

theorem truth_isAtLeast (ha : env.number a = some x) (hb : env.number b = some y) :
    env.truth (a.isAtLeast b) = some (Coordinate.atMost y x) :=
  truth_of_eval (by rw [eval_isAtLeast, compared, eval_of_number ha, eval_of_number hb]; rfl)

/-- Words around a text are written around it. -/
theorem eval_enclosed (ha : env.text a = some s) (opening closing : String) :
    env.eval (concatAll [.text opening, a, .text closing]) = some (.text (opening ++ s ++ closing)) := by
  apply eval_of_text
  rw [text_concatAll]
  simp [ha, concatenation, String.append_assoc]

/-- A case distinction without a second value is null unless its condition holds. -/
theorem eval_caseWhen_absent {p : Bool} {v : Literal α} (ha : env.truth a = some p)
    (hb : env.eval b = some v) (kind : ValueKind) :
    env.eval (caseWhen a b (.absent kind)) = if p then some v else none := by
  rw [eval_caseWhen, ha, hb, eval_absent]
  cases p <;> rfl

end Known

/-- In the row, an operator on one operand has the value of its portable form. -/
def Emulates (env : Environment α) (kind : GeometryKind) (op : SpatialOp) (g : Expr α) : Prop :=
  ∀ e, emulate? kind op [g] = some (.value e) → env.eval (spatial₁ kind op g) = env.eval e

/-- In the row, a column holds a text, and the text of a geometry in it is found by its portable form. -/
structure StoresText (env : Environment α) (c : Column) (wkt : String) : Prop where
  column : env.column c = some (.text wkt)
  asText (kind : GeometryKind) : env.Emulates kind .asText (.column c)

variable {c : Column} {wkt : String}

/-- A stored geometry is its own text. -/
theorem StoresText.text_textOf (h : env.StoresText c wkt) (kind : GeometryKind) :
    env.text (textOf kind (.column c)) = some wkt := by
  have hemulated : emulate? kind .asText [(.column c : Expr α)] = some (.value (.column c)) := by
    cases kind <;> rfl
  apply text_of_eval
  change env.eval (spatial₁ kind .asText (.column c)) = _
  rw [h.asText kind _ hemulated, eval, h.column]

/-- The formula for the number of members counts the commas and one more. -/
theorem StoresText.number_numberOfPoints (h : env.StoresText c wkt)
    (hα : CountsUpTo value? wkt.length) (hcount : wkt.toList.count ',' + 1 ≤ wkt.length) :
    env.number (emulateNumberOfPoints (.column c)) =
      some (Coordinate.ofNat (wkt.toList.count ',' + 1)) := by
  have hcommas := number_countOf hα (by omega) (h.text_textOf .multiPoint)
    (show ",".toList = [','] from rfl)
  have hsum := number_plus hcommas (env.number_number (Coordinate.ofNat 1))
  rw [hα.add_eq hcount] at hsum
  exact hsum

variable {m : MultiPoint Float}

/-- The formula for the number of members counts a collection without members as one. -/
theorem StoresText.number_multiPoint (h : env.StoresText c m.wkt)
    (hα : CountsUpTo value? m.wkt.length) :
    env.number (emulateNumberOfPoints (.column c)) =
      some (Coordinate.ofNat (max 1 m.points.length)) := by
  have hcount := count_comma_wkt_le m
  rw [← count_comma_wkt]
  exact h.number_numberOfPoints hα (by omega)

/-- The formula for the line through the members gives its text, and null when there are too few. -/
theorem StoresText.eval_toLine (h : env.StoresText c m.wkt) (hα : CountsUpTo value? m.wkt.length)
    (hn : env.Emulates .multiPoint .numberOfPoints (.column c)) :
    ∃ e, emulate? .multiPoint .toLine [.column c] = some (.wkt .line e) ∧
      env.eval e = (Line.ofMultiPoint? m).map fun l => .text l.wkt := by
  have hcount := count_comma_wkt_le m
  have hmembers := count_comma_wkt m
  have hnumber : env.number (.numberOfPoints (.column c)) =
      some (Coordinate.ofNat (max 1 m.points.length)) := by
    rw [← h.number_multiPoint hα, number, number]
    exact congrArg (·.bind Literal.number?) (hn _ rfl)
  have hguard := truth_isAtLeast hnumber (env.number_number (Coordinate.ofNat 2))
  rw [hα.atMost_ofNat (by omega) (by omega)] at hguard
  have htext := text_trim (text_replace (text_replace (text_replace (h.text_textOf .multiPoint)
    "MULTIPOINT" "") "(" "") ")" "")
  simp only [Text.trim, String.toList_ofList] at htext
  refine ⟨_, rfl, (eval_caseWhen_absent hguard (eval_enclosed htext _ _) _).trans ?_⟩
  rw [Line.ofMultiPoint?]
  by_cases htwo : 2 ≤ m.points.length
  · obtain ⟨p, rest, hpoints⟩ := List.exists_cons_of_length_pos (Nat.lt_of_lt_of_le two_pos htwo)
    obtain ⟨points⟩ := m
    cases hpoints
    have hline : (Line.mk (p :: rest)).wkt = "LINESTRING (" ++ coordinateList (p :: rest) ++ ")" := rfl
    rw [decide_eq_true (le_max_of_le_right htwo), if_pos rfl, if_pos htwo, Option.map_some, hline,
      ← String.ofList_toList (s := coordinateList (p :: rest)), ← coordinates_of_multiPoint_wkt]
    rfl
  · rw [decide_eq_false (by omega), if_neg Bool.false_ne_true, if_neg htwo, Option.map_none]

/-- The formula for the member at an index gives its text, and null beyond the last member. -/
theorem StoresText.eval_pointAt (h : env.StoresText c m.wkt) (hα : CountsUpTo value? m.wkt.length)
    (hne : m.points ≠ []) {x : α} {i : ℕ} (hx : value? x = some (i : ℚ)) :
    ∃ e, emulate? .multiPoint .pointAtIndex [.column c, .number x] = some (.wkt .point e) ∧
      env.eval e = (m.get? i).map fun p => .text p.wkt := by
  have hcount := count_comma_wkt_le m
  have hmembers := count_comma_wkt m
  have hlength : max 1 m.points.length = m.points.length :=
    max_eq_right (List.length_pos_iff.mpr hne)
  have hguard := truth_isLess (env.number_number x) (h.number_multiPoint hα)
  rw [hα.less_ofNat hx (by omega), hlength] at hguard
  have htext := text_trim (text_replace (text_substringBefore (text_skipMembers
    (text_substringAfter (h.text_textOf .multiPoint) "((") i) ")") "(" "")
  simp only [Text.trim, String.toList_ofList] at htext
  have hemulated : emulate? .multiPoint .pointAtIndex [(.column c : Expr α), .number x] =
      some (.wkt .point (memberText (.column c) x i)) := by
    change some (emulatePointAt (.column c) x) = _
    rw [emulatePointAt, hα.natural_iff.mpr hx]
    rfl
  refine ⟨_, hemulated, (eval_caseWhen_absent hguard (eval_enclosed htext _ _) _).trans ?_⟩
  rw [MultiPoint.get?]
  cases hi : m.points[i]? with
  | none =>
    rw [decide_eq_false (not_lt.mpr (List.getElem?_eq_none_iff.mp hi)), if_neg Bool.false_ne_true,
      Option.map_none]
  | some q =>
    rw [decide_eq_true (List.getElem?_eq_some_iff.mp hi).1, if_pos rfl, Option.map_some, Point.wkt,
      ← String.ofList_toList (s := q.coordinates), ← coordinates_of_member hi]
    rfl

/-- The formula for the ring of a polygon gives its text. -/
theorem StoresText.eval_exteriorRing {polygon : Polygon Float} (h : env.StoresText c polygon.wkt)
    (hring : polygon.ring ≠ []) :
    ∃ e, emulate? .polygon .exteriorRing [.column c] = some (.wkt .line e) ∧
      env.eval e = some (.text polygon.exteriorRing.wkt) := by
  have htext := text_replace (text_replace (text_replace (h.text_textOf .polygon)
    "POLYGON" "LINESTRING") "((" "(") "))" ")"
  simp only [String.toList_ofList] at htext
  refine ⟨_, rfl, eval_of_text (htext.trans (congrArg some ?_))⟩
  exact (congrArg String.ofList (exteriorRing_of_polygon_wkt hring)).trans (String.ofList_toList)

/-- A row whose columns hold texts, without spatial functions: a geometry is its own text, and members
are counted by their commas. -/
def textRow (content : String → String) : Environment α where
  column c := some (.text (content c.name))
  spatial _ op args :=
    match op, args with
    | .asText, [value] => value
    | .numberOfPoints, [some (.text s)] => some (.number (Coordinate.ofNat (s.toList.count ',' + 1)))
    | _, _ => none
  aggregate _ _ := none
  quotientByZero _ := none
  rootBelowZero _ := none
  numberOfWords _ := none

/-- A row of texts hands the text of a column to the operators. -/
theorem eval_textRow (content : String → String) (c : Column) (kind : GeometryKind) (op : SpatialOp) :
    (textRow content : Environment α).eval (spatial₁ kind op (.column c)) =
      (textRow content : Environment α).spatial kind op [some (.text (content c.name))] := by
  have hnode : (spatial₁ kind op (.column c) : Expr α) =
      .node (.spatial kind op) (op.resultKind kind) .unary [.column c] false :=
    congrArg (Expr.node _ _ _ _) (Bool.and_false _)
  rw [hnode, eval, evalAll, evalAll, eval]
  rfl

/-- Its columns store the texts they were given. -/
theorem storesText_textRow (content : String → String) (c : Column) :
    (textRow content : Environment α).StoresText c (content c.name) where
  column := rfl
  asText kind e he := by
    have hcolumn : e = .column c := by cases kind <;> cases he <;> rfl
    rw [hcolumn, eval_textRow, eval]
    rfl

/-- A row that stores the text of a collection emulates its number of points. -/
theorem emulates_numberOfPoints_textRow {m : MultiPoint Float} (hα : CountsUpTo value? m.wkt.length)
    (content : String → String) (c : Column) (hm : content c.name = m.wkt) :
    (textRow content : Environment α).Emulates .multiPoint .numberOfPoints (.column c) := by
  intro e he
  have hstored : (textRow content : Environment α).StoresText c m.wkt :=
    hm ▸ storesText_textRow content c
  cases he
  rw [eval_textRow, eval_of_number (hstored.number_multiPoint hα), hm, ← count_comma_wkt]
  rfl

/-- A collection with a fraction, a negative number and a negative zero among its coordinates. -/
def route : MultiPoint Float := ⟨[⟨1.5, -2⟩, ⟨-0.0, 3⟩]⟩

/-- A triangle. -/
def plot : Polygon Float := ⟨[⟨0, 0⟩, ⟨2, 0⟩, ⟨0, 2⟩, ⟨0, 0⟩]⟩

/-- The texts of a row: of a collection with members, a polygon and a collection without members. -/
def atlas (name : String) : String :=
  if name = "route" then route.wkt else if name = "plot" then plot.wkt else "MULTIPOINT EMPTY"

/-- A column of a table of texts. -/
def atlasColumn (name : String) : Column := ⟨⟨"atlas", none⟩, name, .text⟩

/-- Conversions of stored geometries agree with those of the geometries themselves. In a row where a
column holds the text of a collection, and the number of its members is the value of its own portable
form, the formula for the line through them gives the text of that line, and null when there is none.
Where it holds the text of a polygon with a ring, the formula for the ring gives the text of the ring. -/
theorem stored_conversions_agree (env : Environment α) :
    (∀ (c : Column) (m : MultiPoint Float), CountsUpTo value? m.wkt.length →
      env.StoresText c m.wkt → env.Emulates .multiPoint .numberOfPoints (.column c) →
      ∃ e, emulate? .multiPoint .toLine [.column c] = some (.wkt .line e) ∧
        env.eval e = (Line.ofMultiPoint? m).map fun l => .text l.wkt) ∧
    ∀ (c : Column) (polygon : Polygon Float), env.StoresText c polygon.wkt → polygon.ring ≠ [] →
      ∃ e, emulate? .polygon .exteriorRing [.column c] = some (.wkt .line e) ∧
        env.eval e = some (.text polygon.exteriorRing.wkt) :=
  ⟨fun _ _ hα h hn => h.eval_toLine hα hn, fun _ _ h hring => h.eval_exteriorRing hring⟩

/-- The line through two stored points, the missing line through none, and a stored ring. -/
theorem stored_conversions_agree_atlas :
    (textRow atlas : Environment ℚ).StoresText (atlasColumn "route") route.wkt ∧
    (textRow atlas : Environment ℚ).Emulates .multiPoint .numberOfPoints
      (.column (atlasColumn "route")) ∧
    (∃ e, emulate? .multiPoint .toLine [.column (atlasColumn "route")] = some (.wkt .line e) ∧
      (textRow atlas : Environment ℚ).eval e = some (.text "LINESTRING (1.5 -2, 0 3)")) ∧
    (∃ e, emulate? .multiPoint .toLine [.column (atlasColumn "none")] = some (.wkt .line e) ∧
      (textRow atlas : Environment ℚ).eval e = none) ∧
    ∃ e, emulate? .polygon .exteriorRing [.column (atlasColumn "plot")] = some (.wkt .line e) ∧
      (textRow atlas : Environment ℚ).eval e = some (.text "LINESTRING (0 0, 2 0, 0 2, 0 0)") := by
  have hroute := storesText_textRow (α := ℚ) atlas (atlasColumn "route")
  have hnone := storesText_textRow (α := ℚ) atlas (atlasColumn "none")
  have hplot := storesText_textRow (α := ℚ) atlas (atlasColumn "plot")
  have hcount := emulates_numberOfPoints_textRow (m := route) (countsUpTo_fractions _) atlas
    (atlasColumn "route") rfl
  have hcount' := emulates_numberOfPoints_textRow (m := ⟨[]⟩) (countsUpTo_fractions _) atlas
    (atlasColumn "none") rfl
  obtain ⟨hlines, hrings⟩ := stored_conversions_agree (textRow atlas : Environment ℚ)
  have hline := hlines _ route (countsUpTo_fractions _) hroute hcount
  have hring := hrings _ plot hplot (by decide)
  have hsome : Line.ofMultiPoint? route = some ⟨route.points⟩ := rfl
  have hlineText : (Line.mk route.points).wkt = "LINESTRING (1.5 -2, 0 3)" := by decide +kernel
  have hringText : plot.exteriorRing.wkt = "LINESTRING (0 0, 2 0, 0 2, 0 0)" := by decide +kernel
  rw [hsome, Option.map_some, hlineText] at hline
  rw [hringText] at hring
  exact ⟨hroute, hcount, hline, hlines _ ⟨[]⟩ (countsUpTo_fractions _) hnone hcount', hring⟩

/-- Members of stored collections agree with those of the collections themselves. Where a column holds
the text of a collection that is not empty, the formula for the member at a natural number gives the
text of that member, and null beyond the last one. An index that is negative, a fraction or no number
at all has the absent point for its formula, whatever the collection. -/
theorem stored_members_agree (hα : StandsFor value?) (env : Environment α) :
    (∀ (c : Column) (m : MultiPoint Float), CountsUpTo value? m.wkt.length →
      env.StoresText c m.wkt → m.points ≠ [] → ∀ (x : α) (i : ℕ), value? x = some (i : ℚ) →
      ∃ e, emulate? .multiPoint .pointAtIndex [.column c, .number x] = some (.wkt .point e) ∧
        env.eval e = (m.get? i).map fun p => .text p.wkt) ∧
    ∀ (points : Expr α) (x : α), (∀ q, value? x = some q → q < 0 ∨ q.den ≠ 1) →
      emulate? .multiPoint .pointAtIndex [points, .number x] =
        some (.value (.absent (.geometry .point))) := by
  refine ⟨fun _ _ hm h hne _ _ hx => h.eval_pointAt hm hne hx, fun points x hx => ?_⟩
  change some (emulatePointAt points x) = _
  rw [emulatePointAt, hα.natural_eq_none_iff.mpr hx]

/-- The second of two stored points, the missing third one, and points at one half and at no number. -/
theorem stored_members_agree_route :
    (textRow atlas : Environment Float).StoresText (atlasColumn "route") route.wkt ∧
    (∃ e, emulate? .multiPoint .pointAtIndex
        [.column (atlasColumn "route"), .number (Coordinate.ofNat 1)] = some (.wkt .point e) ∧
      (textRow atlas : Environment Float).eval e = some (.text "POINT (0 3)")) ∧
    (∃ e, emulate? .multiPoint .pointAtIndex
        [.column (atlasColumn "route"), .number (Coordinate.ofNat 2)] = some (.wkt .point e) ∧
      (textRow atlas : Environment Float).eval e = none) ∧
    emulate? .multiPoint .pointAtIndex [.column (atlasColumn "route"), .number (0.5 : Float)] =
      some (.value (.absent (.geometry .point))) ∧
    emulate? .multiPoint .pointAtIndex [.column (atlasColumn "route"), .number (0 / 0 : Float)] =
      some (.value (.absent (.geometry .point))) := by
  have hroute := storesText_textRow (α := Float) atlas (atlasColumn "route")
  have hdoubles : CountsUpTo Decimal.value? route.wkt.length :=
    countsUpTo_doubles (by decide +kernel)
  obtain ⟨hmembers, habsent⟩ := stored_members_agree standsFor_doubles (textRow atlas)
  have hmember := hmembers _ route hdoubles hroute (by decide)
  have hsecond := hmember _ 1 (hdoubles.value_ofNat (by decide +kernel))
  have hthird := hmember _ 2 (hdoubles.value_ofNat (by decide +kernel))
  have hsome : route.get? 1 = some ⟨-0.0, 3⟩ := rfl
  have htext : (Point.mk (-0.0) 3 : Point Float).wkt = "POINT (0 3)" := by decide +kernel
  rw [hsome, Option.map_some, htext] at hsecond
  have hhalf : Decimal.value? 0.5 = some (1 / 2) := by decide +kernel
  have hnan : Decimal.value? (0 / 0) = none := by decide +kernel
  refine ⟨hroute, hsecond, hthird, habsent _ _ ?_, habsent _ _ ?_⟩
  · intro q hq
    right
    rw [← Option.some.inj (hhalf.symm.trans hq)]
    decide +kernel
  · intro q hq
    rw [hnan] at hq
    cases hq

/-- Where a column holds the text of a collection, the formula for the number of its members gives that
number, but one for a collection without members. So it agrees with the count of a literal collection
exactly when there are members. -/
theorem stored_count_agrees_iff (env : Environment α) (c : Column) (m : MultiPoint Float)
    (hα : CountsUpTo value? m.wkt.length) (h : env.StoresText c m.wkt) (literal : MultiPoint α)
    (hliteral : literal.points.length = m.points.length) :
    ∃ formula folded,
      emulate? .multiPoint .numberOfPoints [.column c] = some (.value formula) ∧
      emulate? .multiPoint .numberOfPoints [.multiPoint literal] = some (.value folded) ∧
      env.eval formula = some (.number (Coordinate.ofNat (max 1 m.points.length))) ∧
      env.eval folded = some (.number (Coordinate.ofNat m.points.length)) ∧
      (env.eval formula = env.eval folded ↔ m.points ≠ []) := by
  have hformula := eval_of_number (h.number_multiPoint hα)
  have hfolded : env.eval (emulateNumberOfPoints (.multiPoint literal)) =
      some (.number (Coordinate.ofNat m.points.length)) := by
    rw [← hliteral]
    exact env.eval_number _
  refine ⟨_, _, rfl, rfl, hformula, hfolded, ?_⟩
  rw [hformula, hfolded]
  constructor
  · intro heq hnil
    have hcount := count_comma_wkt_le m
    rw [hnil] at heq
    exact one_ne_zero (hα.ofNat_injective (by omega) (by omega)
      (Literal.number.inj (Option.some.inj heq)))
  · intro hne
    rw [max_eq_right (List.length_pos_iff.mpr hne)]

/-- Two stored points are counted as two. -/
theorem stored_count_agrees_iff_route :
    (textRow atlas : Environment Float).StoresText (atlasColumn "route") route.wkt ∧
    CountsUpTo Decimal.value? route.wkt.length ∧
    ∃ formula folded,
      emulate? .multiPoint .numberOfPoints [.column (atlasColumn "route")] = some (.value formula) ∧
      emulate? .multiPoint .numberOfPoints [.multiPoint route] = some (.value folded) ∧
      (textRow atlas : Environment Float).eval formula = some (.number (Coordinate.ofNat 2)) ∧
      (textRow atlas : Environment Float).eval folded = some (.number (Coordinate.ofNat 2)) := by
  have hroute := storesText_textRow (α := Float) atlas (atlasColumn "route")
  have hdoubles : CountsUpTo Decimal.value? route.wkt.length :=
    countsUpTo_doubles (by decide +kernel)
  obtain ⟨formula, folded, hformula, hfolded, hcount, hcount', -⟩ :=
    stored_count_agrees_iff (textRow atlas) _ route hdoubles hroute route rfl
  exact ⟨hroute, hdoubles, formula, folded, hformula, hfolded, hcount, hcount'⟩

/-- A stored collection without members is not counted as a literal one. -/
theorem stored_count_ne_literal_count :
    ¬ ∀ (env : Environment Float) (c : Column) (m : MultiPoint Float), env.StoresText c m.wkt →
      ∀ formula folded, emulate? .multiPoint .numberOfPoints [.column c] = some (.value formula) →
        emulate? .multiPoint .numberOfPoints [.multiPoint m] = some (.value folded) →
        env.eval formula = env.eval folded := by
  intro hall
  have hnone := storesText_textRow (α := Float) atlas (atlasColumn "none")
  have hdoubles : CountsUpTo Decimal.value? (MultiPoint.mk [] : MultiPoint Float).wkt.length :=
    countsUpTo_doubles (by decide +kernel)
  have hformula := eval_of_number (hnone.number_multiPoint (m := ⟨[]⟩) hdoubles)
  have hfolded : (textRow atlas : Environment Float).eval (emulateNumberOfPoints (.multiPoint ⟨[]⟩)) =
      some (.number (Coordinate.ofNat 0)) :=
    eval_number _ _
  have hagree := hall _ _ ⟨[]⟩ hnone _ _ rfl rfl
  rw [hformula, hfolded] at hagree
  exact one_ne_zero (hdoubles.ofNat_injective (by decide +kernel) (by decide +kernel)
    (Literal.number.inj (Option.some.inj hagree)))

end Environment

end SpatialSql
