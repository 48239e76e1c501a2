import SpatialSql.Emulation.Basic
import SpatialSql.Proofs.Kinds.Signature

/-!
# What portable forms inherit

A portable form is made of literals, absent values, parts of the operands, scalar nodes
and a few spatial ones. `Inherited P` lists the closure laws under which a property `P` of
expressions at their kinds passes from a spatial node to its portable form, one law for
each way of making or taking apart a node that some formula uses. `Carried P` is the part of
them that reaches coordinates, texts and bounds, where a formula looks at an operand before
it makes a node over it. Here these laws are carried through the builders the formulas are
written with, up to coordinates and texts.
-/

namespace SpatialSql.Emulation

open SpatialSql.Expr

variable {α : Type}

/-- Only absent values are absent. -/
theorem isAbsent_eq_false {e : Expr α} (h : ∀ kind, e ≠ .absent kind) : e.isAbsent = false := by
  cases e with
  | absent kind => exact absurd rfl (h kind)
  | literal value | column c | node op kind shape operands guarded => rfl

/-- A property of expressions at their kinds that passes to the coordinates, texts and bounds of
operands. -/
structure Carried (P : ValueKind → Expr α → Prop) : Prop where
  literal (value : Literal α) : P value.kind (.literal value)
  absent (kind : ValueKind) : P kind (.absent kind)
  scalar {op : ScalarOp} {kind : ValueKind} {shape : Shape} {kinds : List ValueKind}
    {operands : List (Expr α)} (ht : op.takes kind kinds = true) (ha : op.isAggregate = false)
    (ho : List.Forall₂ P kinds operands) : P kind (.scalar op kind shape operands)
  /-- The kind of a case distinction is read off its first value. -/
  case {condition value otherwise : Expr α} (hc : P .boolean condition) (hv : P .text value)
    (ho : P .text otherwise) : P .text (.scalar .case value.kind .ternary [condition, value, otherwise])
  /-- Only the extent of a group brings in bounds of a group. -/
  grouped {op : ScalarOp} {kind : ValueKind} {geometry : GeometryKind} {valueKind : ValueKind}
    {shape : Shape} {operands : List (Expr α)} {guarded : Bool} {a : Expr α}
    (hop : op = .min ∨ op = .max)
    (hx : P kind (.node (.spatial geometry .extent) valueKind shape operands guarded))
    (ha : P .number a) : P .number (.scalar op .number .unary [a])
  part {kind valueKind : ValueKind} {shape : Shape} {parts : List (Expr α)} {guarded : Bool}
    {e : Expr α} (h : P kind (.node (.scalar .concat) valueKind shape parts guarded)) (he : e ∈ parts) :
    P .text e
  operand {kind valueKind : ValueKind} {geometry : GeometryKind} {op : SpatialOp} {shape : Shape}
    {operands : List (Expr α)} {guarded : Bool} {i : Nat} {e : Expr α}
    (h : P kind (.node (.spatial geometry op) valueKind shape operands guarded))
    (he : operands[i]? = some e) : P (op.operandKind geometry i) e
  /-- A construction stands at the kind of the geometry it constructs. -/
  member {kind kind' : GeometryKind} {valueKind : ValueKind} {shape : Shape}
    {members : List (Expr α)} {guarded : Bool} {e : Expr α}
    (h : P (.geometry kind) (.node (.spatial kind' .construct) valueKind shape members guarded))
    (he : e ∈ members) : P kind.memberKind e
  /-- A spatial node stands at the kind its operator gives. -/
  result {kind valueKind : ValueKind} {geometry : GeometryKind} {op : SpatialOp} {shape : Shape}
    {operands : List (Expr α)} {guarded : Bool}
    (h : P kind (.node (.spatial geometry op) valueKind shape operands guarded)) :
    P (op.resultKind geometry) (.node (.spatial geometry op) valueKind shape operands guarded)
  getter (axis : Axis) {p : Expr α} (hp : P (.geometry .point) p) (hn : p.isAbsent = false) :
    P .number (spatial₁ .point axis.getter p)
  wellKnownText {kind : GeometryKind} {g : Expr α} (hg : P (.geometry kind) g)
    (hn : g.isAbsent = false) : P .text (spatial₁ kind .asText g)
  side (side : Side) {kind : GeometryKind} {g : Expr α} (hg : P (.geometry kind) g)
    (hn : g.isAbsent = false) : P .number (spatial₁ kind side.op g)

/-- A property of expressions at their kinds that portable forms inherit from the nodes they stand in
for. -/
structure Inherited (P : ValueKind → Expr α → Prop) : Prop extends Carried P where
  size {points : Expr α} (h : P (.geometry .multiPoint) points) :
    P .number (spatial₁ .multiPoint .numberOfPoints points)
  line {members : List (Expr α)} (h : ∀ m ∈ members, P (.geometry .point) m) :
    P (.geometry .line) (construct .line members)
  equality {kind : GeometryKind} {op : SpatialOp} {a b : Expr α} (hop : op = .equals ∨ op = .notEquals)
    (ha : P (.geometry kind) a) (hb : P (.geometry kind) b) : P .boolean (spatial₂ kind op a b)
  polygons {op : SpatialOp} {a b : Expr α} (hop : op = .intersects ∨ op = .contains)
    (ha : P (.geometry .polygon) a) (hb : P (.geometry .polygon) b) :
    P .boolean (spatial₂ .polygon op a b)
  region {a b : Expr α} (ha : P (.geometry .polygon) a) (hb : P (.geometry .polygon) b) :
    P (.geometry .polygon) (intersection a b)
  /-- Where geometries can be disjoint, they can be tested for meeting. -/
  meeting {kind : ValueKind} {geometry : GeometryKind} {valueKind : ValueKind} {shape : Shape}
    {guarded : Bool} {a b : Expr α}
    (h : P kind (.node (.spatial geometry .doesNotIntersect) valueKind shape [a, b] guarded)) :
    P .boolean (spatial₂ geometry .intersects a b)

namespace Carried

variable {P : ValueKind → Expr α → Prop} (hP : Carried P)

include hP

theorem number (x : α) : P .number (Expr.number x) := hP.literal (.number x)

theorem text (s : String) : P .text (Expr.text s) := hP.literal (.text s)

theorem bool (b : Bool) : P .boolean (Expr.bool b) := hP.literal (.bool b)

/-- A scalar node over one operand. -/
theorem unary {op : ScalarOp} {kind kind' : ValueKind} {a : Expr α}
    (ht : op.takes kind [kind'] = true) (hn : op.isAggregate = false) (ha : P kind' a) :
    P kind (.scalar op kind .unary [a]) :=
  hP.scalar ht hn (.cons ha .nil)

/-- A scalar node over two operands. -/
theorem binary {op : ScalarOp} {kind kind₁ kind₂ : ValueKind} {a b : Expr α}
    (ht : op.takes kind [kind₁, kind₂] = true) (hn : op.isAggregate = false) (ha : P kind₁ a)
    (hb : P kind₂ b) : P kind (.scalar op kind .binary [a, b]) :=
  hP.scalar ht hn (.cons ha (.cons hb .nil))

/-- Arithmetic inherits, folded to a literal or not. -/
theorem arithmetic {op : ScalarOp} {fold : α → α → Option α} {a b : Expr α}
    (ht : op.takes .number [.number, .number] = true) (hn : op.isAggregate = false)
    (ha : P .number a) (hb : P .number b) : P .number (Expr.arithmetic op fold a b) := by
  unfold Expr.arithmetic
  split
  · split
    · exact hP.number _
    · exact hP.binary ht hn ha hb
  · exact hP.binary ht hn ha hb

/-- The same for one operand. -/
theorem arithmetic₁ {op : ScalarOp} {fold : α → Option α} {a : Expr α}
    (ht : op.takes .number [.number] = true) (hn : op.isAggregate = false) (ha : P .number a) :
    P .number (Expr.arithmetic₁ op fold a) := by
  unfold Expr.arithmetic₁
  split
  · exact hP.number _
  · exact hP.unary ht hn ha

/-- A comparison of two values of one kind. -/
theorem compare [Coordinate α] {op : ScalarOp} {kind : ValueKind} {a b : Expr α}
    (ht : op.takes .boolean [kind, kind] = true) (hn : op.isAggregate = false) (ha : P kind a)
    (hb : P kind b) : P .boolean (Expr.compare op a b) := by
  unfold Expr.compare
  split
  · exact hP.bool _
  · exact hP.binary ht hn ha hb

/-- A connective is a literal, one of its conditions or a node over both. -/
theorem connective {op : ScalarOp} {neutral : Bool} {a b : Expr α}
    (ht : op.takes .boolean [.boolean, .boolean] = true) (hn : op.isAggregate = false)
    (ha : P .boolean a) (hb : P .boolean b) : P .boolean (Expr.connective op neutral a b) := by
  unfold Expr.connective
  split
  · exact hP.bool _
  split
  · exact hb
  split
  · exact ha
  · exact hP.binary ht hn ha hb

theorem and {a b : Expr α} (ha : P .boolean a) (hb : P .boolean b) : P .boolean (a.and b) :=
  hP.connective rfl rfl ha hb

/-- A negation is a literal or a node. -/
theorem not {a : Expr α} (ha : P .boolean a) : P .boolean a.not := by
  unfold Expr.not
  split
  · exact hP.bool _
  · exact hP.unary rfl rfl ha

/-- A case distinction that is decided is one of its values. -/
theorem caseWhen {condition value otherwise : Expr α} (hc : P .boolean condition)
    (hv : P .text value) (ho : P .text otherwise) :
    P .text (Expr.caseWhen condition value otherwise) := by
  unfold Expr.caseWhen
  split
  · exact hv
  · exact ho
  · exact hP.case hc hv ho

/-- The parts of a concatenation inherit, merged or not. -/
theorem mergeParts {parts : List (Expr α)} (h : ∀ p ∈ parts, P .text p) :
    ∀ p ∈ Expr.mergeParts parts, P .text p := by
  induction parts with
  | nil => exact fun p hp => absurd hp List.not_mem_nil
  | cons part rest ih =>
    have hpart := h part List.mem_cons_self
    have hrest := ih fun p hp => h p (List.mem_cons_of_mem _ hp)
    change ∀ p ∈ consPart part (Expr.mergeParts rest), P .text p
    unfold consPart
    split
    · next heq =>
      rw [heq] at hrest
      rintro p (_ | ⟨_, hp⟩)
      · exact hP.text _
      · exact hrest p (List.mem_cons_of_mem _ hp)
    · rintro p (_ | ⟨_, hp⟩)
      · exact hpart
      · exact hrest p hp

/-- What a text brings to a concatenation is the text itself or one of its parts. -/
theorem concatParts {e p : Expr α} (h : P .text e) (hp : p ∈ e.concatParts) : P .text p := by
  unfold Expr.concatParts at hp
  split at hp
  · exact hP.part h hp
  · obtain rfl := List.mem_singleton.mp hp
    exact h

/-- A concatenation is empty, its only part or a node over merged parts. -/
theorem concatAll {parts : List (Expr α)} (h : ∀ p ∈ parts, P .text p) :
    P .text (Expr.concatAll parts) := by
  have hmerged : ∀ p ∈ Expr.mergeParts (parts.flatMap Expr.concatParts), P .text p := by
    refine hP.mergeParts fun p hp => ?_
    obtain ⟨part, hpart, hp⟩ := List.mem_flatMap.mp hp
    exact hP.concatParts (h part hpart) hp
  unfold Expr.concatAll
  generalize Expr.mergeParts (parts.flatMap Expr.concatParts) = merged at hmerged
  have hkinds : List.Forall₂ P (merged.map fun _ => .text) merged := by
    rw [List.forall₂_map_left_iff, List.forall₂_same]
    exact hmerged
  split
  · exact hP.text _
  · next part => exact hmerged part List.mem_cons_self
  · exact hP.scalar (by simp [ScalarOp.takes]) rfl hkinds

/-- A concatenation of two texts. -/
theorem concat {a b : Expr α} (ha : P .text a) (hb : P .text b) : P .text (a.concat b) := by
  refine hP.concatAll ?_
  simp [ha, hb]

/-- A builder that is computed on a literal text inherits if the node it makes of another does. -/
theorem computed {a e : Expr α} {kind : ValueKind} {value : String → Literal α}
    (hk : ∀ s, (value s).kind = kind) (he : P kind e) :
    P kind (match a.text? with
      | some s => .literal (value s)
      | none => e) := by
  split
  · next s _ => exact hk s ▸ hP.literal (value s)
  · exact he

theorem substringBefore {a : Expr α} (delimiter : String) (ha : P .text a) :
    P .text (a.substringBefore delimiter) :=
  hP.computed (fun _ => rfl) (hP.binary rfl rfl ha (hP.text _))

theorem substringAfter {a : Expr α} (delimiter : String) (ha : P .text a) :
    P .text (a.substringAfter delimiter) :=
  hP.computed (fun _ => rfl) (hP.binary rfl rfl ha (hP.text _))

theorem trim {a : Expr α} (ha : P .text a) : P .text a.trim :=
  hP.computed (fun _ => rfl) (hP.unary rfl rfl ha)

theorem replace {a : Expr α} (pattern replacement : String) (ha : P .text a) :
    P .text (a.replace pattern replacement) :=
  hP.computed (fun _ => rfl)
    (hP.scalar rfl rfl (.cons ha (.cons (hP.text _) (.cons (hP.text _) .nil))))

section Coordinate

variable [Coordinate α]

theorem plus {a b : Expr α} (ha : P .number a) (hb : P .number b) : P .number (a.plus b) :=
  hP.arithmetic rfl rfl ha hb

theorem minus {a b : Expr α} (ha : P .number a) (hb : P .number b) : P .number (a.minus b) :=
  hP.arithmetic rfl rfl ha hb

theorem times {a b : Expr α} (ha : P .number a) (hb : P .number b) : P .number (a.times b) :=
  hP.arithmetic rfl rfl ha hb

theorem dividedBy {a b : Expr α} (ha : P .number a) (hb : P .number b) :
    P .number (a.dividedBy b) :=
  hP.arithmetic rfl rfl ha hb

theorem length {a : Expr α} (ha : P .text a) : P .number a.length :=
  hP.computed (fun _ => rfl) (hP.unary rfl rfl ha)

/-- The number of occurrences is made of lengths before and after they are removed. -/
theorem countOf {a : Expr α} (needle : String) (ha : P .text a) : P .number (a.countOf needle) :=
  hP.dividedBy (hP.minus (hP.length ha) (hP.length (hP.replace needle "" ha))) (hP.number _)

end Coordinate

section Numeral

variable [Numeral α]

theorem sqrt {a : Expr α} (ha : P .number a) : P .number a.sqrt :=
  hP.arithmetic₁ rfl rfl ha

theorem toText {a : Expr α} (ha : P .number a) : P .text a.toText := by
  unfold Expr.toText
  split
  · exact hP.text _
  · exact hP.unary rfl rfl ha

/-- A number that is read off a literal text may be missing. -/
theorem ordinate {a : Expr α} (index : UInt32) (ha : P .text a) : P .number (a.ordinate index) := by
  unfold Expr.ordinate
  split
  · split
    · exact hP.number _
    · exact hP.absent _
  · exact hP.unary rfl rfl ha

end Numeral

/-- The members of a construction at the kind of the geometry. -/
theorem members {kind : GeometryKind} {g : Expr α} {members : List (Expr α)}
    (hg : P (.geometry kind) g) (hm : g.spatialOperands? .construct = some members) :
    ∀ m ∈ members, P kind.memberKind m := by
  unfold spatialOperands? at hm
  split at hm
  · split at hm
    · next hop =>
      subst hop
      obtain rfl := Option.some.inj hm
      exact fun m he => hP.member hg he
    · contradiction
  · contradiction

/-- A coordinate that is known is absent, a literal or a member of a construction. -/
theorem knownCoordinate? {axis : Axis} {p e : Expr α} (hp : P (.geometry .point) p)
    (h : Emulation.knownCoordinate? axis p = some e) : P .number e := by
  unfold Emulation.knownCoordinate? at h
  split at h
  · obtain rfl := Option.some.inj h
    exact hP.absent _
  · obtain rfl := Option.some.inj h
    exact hP.number _
  · obtain ⟨members, hm, he⟩ := Option.bind_eq_some_iff.mp h
    exact hP.members hp hm e (List.mem_of_getElem? he)

/-- A coordinate that is not known is left to its accessor. -/
theorem coordinate (axis : Axis) {p : Expr α} (hp : P (.geometry .point) p) :
    P .number (Emulation.coordinate axis p) := by
  unfold Emulation.coordinate
  cases h : Emulation.knownCoordinate? axis p with
  | none =>
    have hn : p.isAbsent = false := isAbsent_eq_false (by rintro kind rfl; contradiction)
    exact hP.getter axis hp hn
  | some e => exact hP.knownCoordinate? hp h

/-- Items with commas between them. -/
theorem joined {items : List (Expr α)} (h : ∀ item ∈ items, P .text item) :
    ∀ item ∈ Emulation.joined items, P .text item := by
  induction items with
  | nil => exact h
  | cons item rest ih =>
    cases rest with
    | nil => exact h
    | cons next rest =>
      have hrest := ih fun item' h' => h item' (List.mem_cons_of_mem _ h')
      change ∀ item' ∈ item :: Expr.text ", " :: Emulation.joined (next :: rest), P .text item'
      rintro item' (_ | ⟨_, _ | ⟨_, h'⟩⟩)
      · exact h item List.mem_cons_self
      · exact hP.text _
      · exact hrest item' h'

/-- The texts of a list of points. -/
theorem joined_map {members : List (Expr α)} {f : Expr α → Expr α}
    (hf : ∀ m, P (.geometry .point) m → P .text (f m)) (h : ∀ m ∈ members, P (.geometry .point) m) :
    ∀ p ∈ Emulation.joined (members.map f), P .text p := by
  refine hP.joined fun item hi => ?_
  obtain ⟨m, hm, rfl⟩ := List.mem_map.mp hi
  exact hf m (h m hm)

/-- Parts between an opening and a closing word. -/
theorem wrapped {parts : List (Expr α)} (opening closing : String) (h : ∀ p ∈ parts, P .text p) :
    P .text (Emulation.wrapped opening parts closing) := by
  refine hP.concatAll fun p hp => ?_
  rcases List.mem_append.mp hp with hp | hp
  · rcases List.mem_cons.mp hp with rfl | hp
    · exact hP.text _
    · exact h p hp
  · obtain rfl := List.mem_singleton.mp hp
    exact hP.text _

variable [Numeral α]

/-- The texts of two numbers with a blank between them. -/
theorem pairText {x y : Expr α} (hx : P .number x) (hy : P .number y) :
    P .text (Emulation.pairText x y) := by
  refine hP.concatAll ?_
  simp [hP.toText hx, hP.toText hy, hP.text]

/-- The text of the coordinates of a point. -/
theorem coordinatesText {p : Expr α} (hp : P (.geometry .point) p) :
    P .text (Emulation.coordinatesText p) :=
  hP.pairText (hP.coordinate .x hp) (hP.coordinate .y hp)

/-- The text of a point with given coordinates. -/
theorem pointText {x y : Expr α} (hx : P .number x) (hy : P .number y) :
    P .text (Emulation.pointText x y) := by
  refine hP.concatAll ?_
  simp [hP.pairText hx hy, hP.text]

/-- The comparison of two points, coordinate by coordinate. -/
theorem pointsEqual {p q : Expr α} (hp : P (.geometry .point) p) (hq : P (.geometry .point) q) :
    P .boolean (Emulation.pointsEqual p q) :=
  hP.and (hP.compare rfl rfl (hP.coordinate .x hp) (hP.coordinate .x hq))
    (hP.compare rfl rfl (hP.coordinate .y hp) (hP.coordinate .y hq))

/-- What closes a ring, decided at once or by a case distinction. -/
theorem ringClosure {first last : Expr α} (hf : P (.geometry .point) first)
    (hl : P (.geometry .point) last) : P .text (Emulation.ringClosure first last) := by
  unfold Emulation.ringClosure
  split
  · exact hP.text _
  · exact hP.caseWhen (hP.pointsEqual hf hl) (hP.text _)
      (hP.concat (hP.text _) (hP.coordinatesText hf))

omit [Numeral α] in
/-- A missing coordinate is an absent number. -/
theorem memberAt {members : List (Expr α)} (h : ∀ m ∈ members, P .number m) (i : Nat) :
    P .number (members[i]?.getD (.absent .number)) := by
  cases hi : members[i]? with
  | none => exact hP.absent _
  | some m => exact h m (List.mem_of_getElem? hi)

/-- The text of a construction, whatever its kind. -/
theorem constructText {kind : GeometryKind} {members : List (Expr α)}
    (h : ∀ m ∈ members, P kind.memberKind m) : P .text (Emulation.constructText kind members) := by
  have hcoordinates {m : Expr α} (hm : P (.geometry .point) m) := hP.coordinatesText hm
  cases kind with
  | point => exact hP.pointText (hP.memberAt h 0) (hP.memberAt h 1)
  | line => exact hP.wrapped _ _ (hP.joined_map (fun _ => hcoordinates) h)
  | segment => exact hP.wrapped _ _ (hP.joined_map (fun _ => hcoordinates) h)
  | multiPoint =>
    refine hP.wrapped _ _ (hP.joined_map (fun m hm => hP.wrapped _ _ fun p hp => ?_) h)
    obtain rfl := List.mem_singleton.mp hp
    exact hcoordinates hm
  | polygon =>
    refine hP.wrapped _ _ fun p hp => ?_
    rcases List.mem_append.mp hp with hp | hp
    · exact hP.joined_map (fun _ => hcoordinates) h p hp
    · split at hp
      · next first last hf hl =>
        obtain rfl := List.mem_singleton.mp hp
        exact hP.ringClosure (h first (List.mem_of_head? hf)) (h last (List.mem_of_getLast? hl))
      · contradiction

/-- The text of a rectangle with given sides. -/
theorem rectangleText {minX minY maxX maxY : Expr α} (h₁ : P .number minX) (h₂ : P .number minY)
    (h₃ : P .number maxX) (h₄ : P .number maxY) :
    P .text (Emulation.rectangleText minX minY maxX maxY) := by
  refine hP.wrapped _ _ (hP.joined ?_)
  simp [hP.pairText, h₁, h₂, h₃, h₄]

/-- A text that is known is absent, that of a literal or that of a construction. -/
theorem knownText? {kind : GeometryKind} {g e : Expr α} (hg : P (.geometry kind) g)
    (h : Emulation.knownText? kind g = some e) : P .text e := by
  unfold Emulation.knownText? at h
  split at h
  · obtain rfl := Option.some.inj h
    exact hP.absent _
  · obtain ⟨wkt, -, rfl⟩ := Option.map_eq_some_iff.mp h
    exact hP.text _
  · obtain rfl := Option.some.inj h
    exact hP.constructText fun m hm => hP.member hg hm
  · contradiction

/-- A text that is not known is left to its accessor. -/
theorem textOf {kind : GeometryKind} {g : Expr α} (hg : P (.geometry kind) g) :
    P .text (Emulation.textOf kind g) := by
  unfold Emulation.textOf
  cases h : Emulation.knownText? kind g with
  | none =>
    have hn : g.isAbsent = false := isAbsent_eq_false (by rintro kind rfl; contradiction)
    exact hP.wellKnownText hg hn
  | some e => exact hP.knownText? hg h

end Carried

/-- A property holds of the coordinates of the ends of a segment. -/
structure Ends.All (P : ValueKind → Expr α → Prop) (ends : Ends α) : Prop where
  x₁ : P .number ends.x₁
  y₁ : P .number ends.y₁
  x₂ : P .number ends.x₂
  y₂ : P .number ends.y₂

namespace Carried

variable {P : ValueKind → Expr α → Prop} (hP : Carried P) [Numeral α]

include hP

/-- The ends of a segment, from the literal, its members or its text. -/
theorem segmentEnds {s : Expr α} (hs : P (.geometry .segment) s) :
    (Emulation.segmentEnds s).All P := by
  unfold Emulation.segmentEnds
  split
  · exact ⟨hP.number _, hP.number _, hP.number _, hP.number _⟩
  · next start stop _ hm =>
    have hstart : P (.geometry .point) start := hP.members hs hm start (by simp)
    have hstop : P (.geometry .point) stop := hP.members hs hm stop (by simp)
    exact ⟨hP.coordinate .x hstart, hP.coordinate .y hstart, hP.coordinate .x hstop,
      hP.coordinate .y hstop⟩
  · have hwkt := hP.textOf hs
    exact ⟨hP.ordinate 0 hwkt, hP.ordinate 1 hwkt, hP.ordinate 2 hwkt, hP.ordinate 3 hwkt⟩

end Carried

end SpatialSql.Emulation
