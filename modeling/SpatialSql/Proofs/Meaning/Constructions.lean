import SpatialSql.Proofs.Kinds.Builders
import SpatialSql.Proofs.Meaning.Equality
import SpatialSql.Proofs.Meaning.Segments

/-!
# The texts of constructions

The portable text of a construction is put together from the coordinates of its members,
whatever these are. In a row where the members are points it comes to the well-known text of
the geometry through these points. Whether the ring of a polygon has to be closed is settled
in three ways: at once where its first and last member compare equal or are both literals,
and by a case distinction in all other rows. Each of them agrees with the ring that is closed
once its points are known.
-/

namespace SpatialSql

/-- No coordinate of the point is undefined. -/
def Point.Defined (p : Point Float) : Prop := p.x.isNaN = false ∧ p.y.isNaN = false

instance (p : Point Float) : Decidable p.Defined :=
  inferInstanceAs (Decidable (p.x.isNaN = false ∧ p.y.isNaN = false))

/-- Points that are alike compare equal, unless a coordinate is undefined. -/
theorem Point.Alike.beq {p q : Point Float} (h : p.Alike q) (hp : p.Defined) :
    (p == q) = true := by
  rw [Point.beq_eq, h.1.beq hp.1, h.2.beq hp.2]
  rfl

/-- The order of two points does not matter for comparing them. -/
theorem Point.beq_comm (p q : Point Float) : (p == q) = (q == p) := by
  rw [Point.beq_eq, Point.beq_eq, Decimal.beq_comm p.x, Decimal.beq_comm p.y]

/-- The first point of a ring is repeated exactly when it differs from the last. -/
theorem Polygon.closeRing_eq {points : List (Point Float)} {first last : Point Float}
    (hf : points.head? = some first) (hl : points.getLast? = some last) :
    closeRing points = if first == last then points else points ++ [first] := by
  cases points with
  | nil => contradiction
  | cons p rest =>
    cases hf
    rw [List.getLast?_cons, Option.some_inj] at hl
    rw [closeRing, hl, Point.beq_comm]

/-- A point after others follows a comma. -/
theorem coordinateList_concat {points : List (Point Float)} (hne : points ≠ []) (p : Point Float) :
    coordinateList (points ++ [p]) = coordinateList points ++ ", " ++ p.coordinates := by
  rw [coordinateList, coordinateList, List.map_append, List.map_singleton,
    String.intercalate_append_of_ne_nil (by simpa using hne) (List.cons_ne_nil _ _),
    String.intercalate_singleton]

/-- The geometry of a kind through the given points, in order. -/
def Literal.through? {α : Type} [Coordinate α] :
    GeometryKind → List (Point α) → Option (Literal α)
  | .line, points => some (.line ⟨points⟩)
  | .segment, [start, stop] => some (.segment ⟨start, stop⟩)
  | .multiPoint, points => some (.multiPoint ⟨points⟩)
  | .polygon, points => (Polygon.ofPoints? points).map .polygon
  | _, _ => none

section Lists

variable {β γ : Type} {R : β → γ → Prop} {l : List β} {l' : List γ} {y : γ}

/-- Lists that are related member by member have related first members. -/
theorem exists_head?_of_forall₂ (h : List.Forall₂ R l l') (hy : l'.head? = some y) :
    ∃ x, l.head? = some x ∧ R x y := by
  cases h with
  | nil => contradiction
  | cons hxy _ =>
    cases hy
    exact ⟨_, rfl, hxy⟩

/-- And related last ones. -/
theorem exists_getLast?_of_forall₂ (h : List.Forall₂ R l l') (hy : l'.getLast? = some y) :
    ∃ x, l.getLast? = some x ∧ R x y := by
  rw [← List.head?_reverse] at hy ⊢
  exact exists_head?_of_forall₂ (List.forall₂_reverse_iff.mpr h) hy

end Lists

namespace Expr

variable {α : Type} {kind : GeometryKind} {members : List (Expr α)}

/-- A point is constructed from two members. -/
theorem HasKind.exists_members {valueKind : ValueKind} {shape : Shape} {guarded : Bool}
    (h : HasKind (.geometry .point)
      (.node (.spatial kind .construct) valueKind shape members guarded)) :
    kind = .point ∧ ∃ x y, members = [x, y] := by
  obtain ⟨hw, hkind⟩ := h
  have ht := hw.takes
  cases hw
  cases hkind
  have hcount : (members.map Expr.kind).length = 2 := of_decide_eq_true ht.count
  rw [List.length_map] at hcount
  exact ⟨rfl, List.length_eq_two.mp hcount⟩

/-- A construction that is not guarded has as many members as its geometry needs. -/
theorem minMembers_le_length (h : (construct kind members).isGuarded = false) :
    kind.minMembers ≤ members.length := by
  have hlacks : (decide (members.length < kind.minMembers) || members.any includesNull) = false := h
  rw [Bool.or_eq_false_iff, decide_eq_false_iff_not] at hlacks
  exact Nat.le_of_not_lt hlacks.1

end Expr

/-- A coordinate of a point as a literal. -/
def Literal.ordinate? {α : Type} (axis : Axis) : Literal α → Option (Literal α)
  | .point p => some (.number (axis.of p))
  | _ => none

namespace Environment

open SpatialSql.Expr SpatialSql.Emulation

/-- The database makes a point from its coordinates and reads them off again. -/
structure ReadsPoints {α : Type} (env : Environment α) : Prop where
  construct : ∀ v w : Option (Literal α), env.spatial .point .construct [v, w] =
    Option.map₂ (fun x y => .point ⟨x, y⟩) (v.bind Literal.number?) (w.bind Literal.number?)
  getter : ∀ (axis : Axis) (p : Point α),
    env.spatial .point axis.getter [some (.point p)] = some (.number (axis.of p))

/-- In the row, a point expression has the given point as its value. -/
structure DenotesPoint {α : Type} [Numeral α] (env : Environment α) (m : Expr α) (p : Point α) :
    Prop where
  kind : HasKind (.geometry .point) m
  value : env.eval m = some (.point p)

section Coordinates

variable {α : Type} [Numeral α] {env : Environment α} {m : Expr α} {p : Point α}

/-- A spatial operator on one operand that has a value is no null test. -/
theorem eval_spatial₁ {v : Literal α} (hm : env.eval m = some v) (kind : GeometryKind)
    (op : SpatialOp) : env.eval (spatial₁ kind op m) = env.spatial kind op [some v] := by
  have hpresent : m.isAbsent = false := by
    cases m with
    | absent kind =>
      rw [eval_absent] at hm
      contradiction
    | literal v | column c | node op kind shape operands guarded => rfl
  have hguard : lacksOperand (.spatial kind op) .unary [m] = false := by
    simp [lacksOperand, hpresent]
  rw [spatial₁, Expr.spatial, apply, hguard, Bool.and_false, eval, evalAll_eq_map,
    List.map_singleton, hm]

/-- The accessor of a coordinate reads it off the value of its operand. -/
theorem number_getter (hr : env.ReadsPoints) (hm : env.eval m = some (.point p)) (axis : Axis) :
    env.number (spatial₁ .point axis.getter m) = some (axis.of p) :=
  number_of_eval ((eval_spatial₁ hm _ _).trans (hr.getter axis p))

/-- The members of a point are its coordinates. -/
theorem number_member (hr : env.ReadsPoints) {valueKind : ValueKind} {shape : Shape} {x y : Expr α}
    {guarded : Bool}
    (hm : env.eval (.node (.spatial .point .construct) valueKind shape [x, y] guarded) =
      some (.point p)) : env.number x = some p.x ∧ env.number y = some p.y := by
  cases guarded with
  | true =>
    rw [eval] at hm
    cases hm
  | false =>
    rw [eval, evalAll_eq_map, List.map_cons, List.map_singleton, hr.construct] at hm
    obtain ⟨a, b, ha, hb, hab⟩ := Option.map₂_eq_some_iff.mp hm
    cases hab
    exact ⟨ha, hb⟩

/-- A coordinate of a point expression is that of the point it denotes. -/
theorem number_coordinate (hr : env.ReadsPoints) (hm : env.DenotesPoint m p) (axis : Axis) :
    env.number (coordinate axis m) = some (axis.of p) := by
  have hgetter := number_getter hr hm.value axis
  cases m with
  | literal v =>
    have hv := hm.value
    rw [eval_literal] at hv
    cases hv
    exact env.number_number _
  | column c => exact hgetter
  | absent kind =>
    have hv := hm.value
    rw [eval_absent] at hv
    contradiction
  | node op kind shape operands guarded =>
    cases op with
    | scalar op => exact hgetter
    | spatial geometry op =>
      by_cases hop : op = .construct
      · subst hop
        obtain ⟨rfl, x, y, rfl⟩ := hm.kind.exists_members
        obtain ⟨hx, hy⟩ := number_member hr hm.value
        cases axis with
        | x => exact hx
        | y => exact hy
      · have hunknown : knownCoordinate? axis
            (.node (.spatial geometry op) kind shape operands guarded) = none := by
          simp [knownCoordinate?, spatialOperands?, hop]
        rw [coordinate, hunknown]
        exact hgetter

/-- The formula for the coordinates of a point writes those it denotes. -/
theorem text_coordinatesText (hr : env.ReadsPoints) (hm : env.DenotesPoint m p) :
    env.text (coordinatesText m) = some p.coordinates :=
  text_pairText (number_coordinate hr hm .x) (number_coordinate hr hm .y)

end Coordinates

section Texts

variable {α : Type} [Numeral α] {env : Environment α}

/-- Members that have points as their values denote them. -/
theorem forall₂_denotesPoint {kind : GeometryKind} (hkind : kind ≠ .point)
    {members : List (Expr α)} {points : List (Point α)} (hw : (construct kind members).WellKinded)
    (hm : List.Forall₂ (fun m p => env.eval m = some (.point p)) members points) :
    List.Forall₂ env.DenotesPoint members points := by
  have hgeometry : HasKind (.geometry kind) (construct kind members) := ⟨hw, rfl⟩
  have hmember (m : Expr α) (h : m ∈ members) : HasKind (.geometry .point) m :=
    GeometryKind.memberKind_of_ne hkind ▸ inherited_hasKind.member hgeometry h
  have hboth := (List.forall₂_and_left members points).mpr ⟨hmember, hm⟩
  exact hboth.imp fun _ _ h => ⟨h.1, h.2⟩

/-- Words around a text are written around it. -/
theorem text_wrapped {opening closing s : String} {parts : List (Expr α)}
    (h : concatenation (parts.map env.text) = some s) :
    env.text (wrapped opening parts closing) = some (opening ++ s ++ closing) := by
  rw [wrapped, text_concatAll, List.map_append, concatenation_append, List.map_cons,
    concatenation_cons, h, List.map_singleton, concatenation_singleton, text_text, text_text]
  rfl

/-- Items that are joined come to their texts with commas between them. -/
theorem concatenation_joined {items : List (Expr α)} {texts : List String}
    (h : List.Forall₂ (fun e s => env.text e = some s) items texts) :
    concatenation ((joined items).map env.text) = some (String.intercalate ", " texts) := by
  induction h with
  | nil =>
    rw [String.intercalate_nil]
    rfl
  | @cons e s rest texts he hrest ih =>
    cases hrest with
    | nil =>
      rw [joined, List.map_singleton, concatenation_singleton, he, String.intercalate_singleton]
    | @cons e' s' rest texts =>
      change concatenation (env.text e :: env.text (.text ", ") ::
        (joined (e' :: rest)).map env.text) = _
      rw [concatenation_cons, concatenation_cons, ih, he, text_text, String.intercalate_cons_cons]
      simp [String.append_assoc]

/-- The texts of members are joined point by point. -/
theorem concatenation_joined_map {members : List (Expr α)} {points : List (Point α)}
    {write : Expr α → Expr α} {text : Point α → String}
    (hwrite : ∀ {m p}, env.DenotesPoint m p → env.text (write m) = some (text p))
    (hm : List.Forall₂ env.DenotesPoint members points) :
    concatenation ((joined (members.map write)).map env.text) =
      some (String.intercalate ", " (points.map text)) := by
  apply concatenation_joined
  rw [List.forall₂_map_left_iff, List.forall₂_map_right_iff]
  exact hm.imp fun _ _ => hwrite

variable {members : List (Expr α)} {points : List (Point α)}

/-- The formula for a line writes its points. -/
theorem text_constructText_line (hr : env.ReadsPoints)
    (hm : List.Forall₂ env.DenotesPoint members points) (hne : points ≠ []) :
    env.text (constructText .line members) = some (Line.mk points).wkt := by
  rw [Line.wkt, if_neg (mt List.isEmpty_iff.mp hne)]
  exact text_wrapped (concatenation_joined_map (text_coordinatesText hr) hm)

/-- The formula for a segment writes its two ends. -/
theorem text_constructText_segment (hr : env.ReadsPoints) {s : Segment α}
    (hm : List.Forall₂ env.DenotesPoint members s.points) :
    env.text (constructText .segment members) = some s.wkt :=
  text_wrapped (concatenation_joined_map (text_coordinatesText hr) hm)

/-- The members of a collection of points have parentheses of their own. -/
theorem text_constructText_multiPoint (hr : env.ReadsPoints)
    (hm : List.Forall₂ env.DenotesPoint members points) (hne : points ≠ []) :
    env.text (constructText .multiPoint members) = some (MultiPoint.mk points).wkt := by
  have henclosed {m : Expr α} {p : Point α} (h : env.DenotesPoint m p) :
      env.text (wrapped "(" [coordinatesText m] ")") = some ("(" ++ p.coordinates ++ ")") := by
    apply text_wrapped
    rw [List.map_singleton, concatenation_singleton]
    exact text_coordinatesText hr h
  rw [MultiPoint.wkt, if_neg (mt List.isEmpty_iff.mp hne)]
  exact text_wrapped (concatenation_joined_map henclosed hm)

end Texts

section Rings

variable {env : Environment Float} {applied : Op → Prop} {a b : Expr Float} {p q : Point Float}

/-- The formula for equality compares the points it is given. -/
theorem truth_pointsEqual (hr : env.ReadsPoints) (ha : env.DenotesPoint a p)
    (hb : env.DenotesPoint b q) : env.truth (pointsEqual a b) = some (p == q) := by
  have hx := truth_isEqual (number_coordinate hr ha .x) (number_coordinate hr hb .x)
  have hy := truth_isEqual (number_coordinate hr ha .y) (number_coordinate hr hb .y)
  exact truth_and_known hx hy

/-- Expressions that compare equal denote points that compare equal. -/
theorem beq_of_same (he : env.Extensional applied) (ho : ∀ op ∈ a.operators, applied op)
    (ha : env.DenotesPoint a p) (hb : env.DenotesPoint b q) (hp : p.Defined)
    (hab : (a == b) = true) : (p == q) = true := by
  have hvalues := he.eval a b ho hab
  rw [ha.value, hb.value] at hvalues
  cases hvalues with
  | some halike =>
    cases halike with
    | point h => exact h.beq hp

/-- What closes a ring: nothing if its first and last point compare equal, else the first point. -/
theorem text_ringClosure (he : env.Extensional applied) (ho : ∀ op ∈ a.operators, applied op)
    (hr : env.ReadsPoints) (ha : env.DenotesPoint a p) (hb : env.DenotesPoint b q) (hp : p.Defined) :
    env.text (ringClosure a b) = some (if p == q then "" else ", " ++ p.coordinates) := by
  unfold ringClosure
  by_cases hab : (a == b) = true
  · rw [if_pos hab, beq_of_same he ho ha hb hp hab, text_text]
    rfl
  · have hreopen : env.text (concat (.text ", ") (coordinatesText a)) =
        some (", " ++ p.coordinates) := by
      rw [text_concat, text_text, text_coordinatesText hr ha]
      rfl
    -- Literals fold this condition, so the case distinction may be gone; its value is the same.
    rw [if_neg hab, text, eval_caseWhen, truth_pointsEqual hr ha hb]
    cases p == q with
    | true => exact env.text_text ""
    | false => exact hreopen

variable {members : List (Expr Float)} {points : List (Point Float)} {first last : Point Float}

/-- The text of a polygon repeats its first point exactly when that differs from the last. -/
theorem text_constructText_polygon
    (he : env.Extensional fun op => ∃ m ∈ members, op ∈ m.operators) (hr : env.ReadsPoints)
    (hm : List.Forall₂ env.DenotesPoint members points) (hf : points.head? = some first)
    (hl : points.getLast? = some last) (hd : first.Defined) :
    env.text (constructText .polygon members) = some ("POLYGON ((" ++
      coordinateList (if first == last then points else points ++ [first]) ++ "))") := by
  obtain ⟨a, ha, hfirst⟩ := exists_head?_of_forall₂ hm hf
  obtain ⟨b, hb, hlast⟩ := exists_getLast?_of_forall₂ hm hl
  have hring : constructText .polygon members = wrapped "POLYGON (("
      (joined (members.map coordinatesText) ++ [ringClosure a b]) "))" := by
    simp only [constructText, ha, hb]
  have hlist : concatenation ((joined (members.map coordinatesText)).map env.text) =
      some (coordinateList points) :=
    concatenation_joined_map (text_coordinatesText hr) hm
  rw [hring]
  apply text_wrapped
  rw [List.map_append, concatenation_append, List.map_singleton, concatenation_singleton, hlist,
    text_ringClosure he (fun op hop => ⟨a, List.mem_of_head? ha, hop⟩) hr hfirst hlast hd]
  cases first == last with
  | true => simp
  | false =>
    have hne : points ≠ [] := by
      rintro rfl
      contradiction
    simp [coordinateList_concat hne, String.append_assoc]

end Rings

/-- In a row where its members are points without undefined coordinates, the text formula of a
construction that is not guarded comes to the well-known text of the geometry through these points;
and the ring of a polygon repeats the first point exactly when it differs from the last. -/
theorem eval_constructText (env : Environment Float) (hr : env.ReadsPoints) (kind : GeometryKind)
    (hkind : kind ≠ .point) (members : List (Expr Float))
    (he : env.Extensional fun op => ∃ m ∈ members, op ∈ m.operators)
    (hw : (construct kind members).WellKinded) (hg : (construct kind members).isGuarded = false)
    (points : List (Point Float))
    (hm : List.Forall₂ (fun m p => env.eval m = some (.point p)) members points)
    (hd : ∀ p ∈ points, p.Defined) :
    (∃ value wkt, Literal.through? kind points = some value ∧ value.wkt? = some (kind, wkt) ∧
      env.eval (constructText kind members) = some (.text wkt)) ∧
    ∀ first last, kind = .polygon → points.head? = some first → points.getLast? = some last →
      env.eval (constructText kind members) = some (.text ("POLYGON ((" ++
        coordinateList (if first == last then points else points ++ [first]) ++ "))")) := by
  have hmembers := forall₂_denotesPoint hkind hw hm
  have hcount := minMembers_le_length hg
  rw [hm.length_eq] at hcount
  have hpolygon (first last : Point Float) (hk : kind = .polygon)
      (hf : points.head? = some first) (hl : points.getLast? = some last) :
      env.eval (constructText kind members) = some (.text ("POLYGON ((" ++
        coordinateList (if first == last then points else points ++ [first]) ++ "))")) := by
    subst hk
    exact eval_of_text (text_constructText_polygon he hr hmembers hf hl
      (hd first (List.mem_of_head? hf)))
  refine ⟨?_, hpolygon⟩
  have hpos : 0 < points.length := Nat.lt_of_lt_of_le (by cases kind <;> decide) hcount
  have hne : points ≠ [] := List.ne_nil_of_length_pos hpos
  cases kind with
  | point => contradiction
  | line => exact ⟨_, _, rfl, rfl, eval_of_text (text_constructText_line hr hmembers hne)⟩
  | segment =>
    have htwo : (members.map Expr.kind).length = 2 := of_decide_eq_true hw.takes.count
    rw [List.length_map, hm.length_eq] at htwo
    obtain ⟨start, stop, rfl⟩ := List.length_eq_two.mp htwo
    exact ⟨.segment ⟨start, stop⟩, _, rfl, rfl, eval_of_text (text_constructText_segment hr hmembers)⟩
  | multiPoint =>
    exact ⟨_, _, rfl, rfl, eval_of_text (text_constructText_multiPoint hr hmembers hne)⟩
  | polygon =>
    have hf := List.head?_eq_some_head hne
    have hl := List.getLast?_eq_some_getLast hne
    have hring : Polygon.ofPoints? points = some ⟨Polygon.closeRing points⟩ :=
      if_neg (Nat.not_lt.mpr hcount)
    refine ⟨.polygon ⟨Polygon.closeRing points⟩, _, congrArg (Option.map _) hring, rfl, ?_⟩
    rw [Polygon.wkt, Polygon.closeRing_eq hf hl]
    exact hpolygon _ _ rfl hf hl

/-- A row of a database that knows points alone, with the given columns. -/
def plane (column : Column → Option (Literal Float)) : Environment Float where
  column := column
  spatial
    | .point, .construct, args =>
      let number (i : Nat) : Option Float := (args[i]?.join).bind Literal.number?
      Option.map₂ (fun x y => .point ⟨x, y⟩) (number 0) (number 1)
    | .point, .getX, args => (args[0]?.join).bind (Literal.ordinate? .x)
    | .point, .getY, args => (args[0]?.join).bind (Literal.ordinate? .y)
    | _, _, _ => none
  aggregate _ _ := none
  quotientByZero _ := none
  rootBelowZero _ := none
  numberOfWords _ := none

/-- Coordinates of values that are alike are alike. -/
theorem rel_ordinate? {v v' : Option (Literal Float)} (hv : Option.Rel Literal.Alike v v')
    (axis : Axis) : Option.Rel Literal.Alike (v.bind (Literal.ordinate? axis))
      (v'.bind (Literal.ordinate? axis)) := by
  cases hv with
  | none => exact .none
  | some hv =>
    cases hv with
    | point h =>
      cases axis with
      | x => exact .some (.number h.1)
      | y => exact .some (.number h.2)
    | _ => exact .none

theorem readsPoints_plane (column : Column → Option (Literal Float)) :
    (plane column).ReadsPoints where
  construct _ _ := rfl
  getter axis _ := by cases axis <;> rfl

/-- The database that knows points alone cannot tell zeros apart. -/
theorem extensional_plane (column : Column → Option (Literal Float)) (applied : Op → Prop) :
    (plane column).Extensional applied where
  spatial kind op _ args args' h := by
    have harg := Extensional.rel_arg h
    cases kind with
    | point =>
      cases op with
      | construct =>
        have hnumber (i : Nat) := rel_bind_number? (harg i)
        exact rel_map₂ (fun hx hy => .point ⟨hx, hy⟩) (hnumber 0) (hnumber 1)
      | getX => exact rel_ordinate? (harg 0) .x
      | getY => exact rel_ordinate? (harg 0) .y
      | _ => exact .none
    | _ => exact .none
  aggregate _ _ _ _ _ _ := .none
  quotientByZero _ _ _ _ := .none
  rootBelowZero _ _ _ _ := .none

/-- A row with a number and two points that differ in the sign of a zero. -/
def signedZeros : Environment Float :=
  plane fun c =>
    if c.name = "start" then some (.point ⟨0, 0⟩)
    else if c.name = "stop" then some (.point ⟨-0, 0⟩)
    else some (.number 4)

/-- The members of a triangle: columns, a literal and a point with a column in it. -/
def triangle : List (Expr Float) :=
  let column (name : String) (kind : ValueKind) : Expr Float := .column ⟨⟨"t", none⟩, name, kind⟩
  [column "start" (.geometry .point), .point ⟨4, 0⟩,
    construct .point [column "width" .number, .number 3], column "stop" (.geometry .point)]

/-- The points the members denote. -/
def vertices : List (Point Float) := [⟨0, 0⟩, ⟨4, 0⟩, ⟨4, 3⟩, ⟨-0, 0⟩]

/-- The ring ends where it starts, although its last point has a zero of the other sign. -/
theorem eval_constructText_triangle :
    (construct .polygon triangle).WellKinded ∧ (construct .polygon triangle).isGuarded = false ∧
    List.Forall₂ (fun m p => signedZeros.eval m = some (.point p)) triangle vertices ∧
    signedZeros.eval (constructText .polygon triangle) =
      some (.text "POLYGON ((0 0, 4 0, 4 3, 0 0))") := by
  have hmember : ∀ m ∈ triangle, HasKind (.geometry .point) m := by
    have hcorner : HasKind (.geometry .point)
        (construct .point [.column ⟨⟨"t", none⟩, "width", .number⟩, .number (3 : Float)]) :=
      hasKind_construct rfl (List.forall_mem_cons.mpr ⟨⟨.column _, rfl⟩,
        List.forall_mem_singleton.mpr ⟨.literal _, rfl⟩⟩)
    simp only [triangle, List.forall_mem_cons]
    exact ⟨⟨.column _, rfl⟩, ⟨.literal _, rfl⟩, hcorner, ⟨.column _, rfl⟩, by simp⟩
  have hw : (construct .polygon triangle).WellKinded := (hasKind_construct rfl hmember).wellKinded
  have hg : (construct .polygon triangle).isGuarded = false := rfl
  have hm : List.Forall₂ (fun m p => signedZeros.eval m = some (.point p)) triangle vertices :=
    .cons rfl (.cons rfl (.cons rfl (.cons rfl .nil)))
  have hring : "POLYGON ((" ++ coordinateList (if (⟨0, 0⟩ : Point Float) == ⟨-0, 0⟩ then vertices
      else vertices ++ [⟨0, 0⟩]) ++ "))" = "POLYGON ((0 0, 4 0, 4 3, 0 0))" := by
    decide +kernel
  have h := eval_constructText signedZeros (readsPoints_plane _) .polygon (by decide) triangle
    (extensional_plane _ _) hw hg vertices hm (by decide +kernel)
  exact ⟨hw, hg, hm, hring ▸ h.2 ⟨0, 0⟩ ⟨-0, 0⟩ rfl rfl rfl⟩

end Environment

end SpatialSql
