import SpatialSql.Proofs.Emulation.Nodes
import SpatialSql.Proofs.Kinds.Builders

/-!
# Guards say what the operands ask for

Whether a node stands for a null test is recorded once, when the node is made, and every later
step takes the record over. `Assembled` collects the expressions that any sequence of steps leads
to: builders on operands of any kind, nodes given by operator and operands, copies and portable
forms. In all of them each node has the record that its operands ask for, and a node that
stands for a null test compiles like the null test written out.
-/

namespace SpatialSql

open SpatialSql.Expr SpatialSql.Emulation

variable {α : Type}

/-- A shape has room for a number of operands. -/
def Shape.holds : Shape → Nat → Bool
  | unary, count => count == 1
  | binary, count => count == 2
  | ternary, count => count == 3
  | nary, _ => true

/-- The expressions that any sequence of steps leads to. Builders that only apply an operator, or
that are composed of others, need no rule of their own. -/
inductive Assembled [Numeral α] : Expr α → Prop
  | literal (value : Literal α) : Assembled (.literal value)
  | column (c : Column) : Assembled (.column c)
  | absent (kind : ValueKind) : Assembled (.absent kind)
  | apply {op : Op} {kind : ValueKind} {shape : Shape} {operands : List (Expr α)}
      (hs : shape.holds operands.length = true) (h : ∀ e ∈ operands, Assembled e) :
      Assembled (Expr.apply op kind shape operands)
  | operand {op : Op} {kind : ValueKind} {shape : Shape} {operands : List (Expr α)} {guarded : Bool}
      {e : Expr α} (h : Assembled (.node op kind shape operands guarded)) (he : e ∈ operands) :
      Assembled e
  | deepCopy {e : Expr α} (h : Assembled e) : Assembled e.deepCopy
  | emulated {kind : GeometryKind} {op : SpatialOp} {operands : List (Expr α)} {form : Emulated α}
      (h : ∀ e ∈ operands, Assembled e) (hf : emulate? kind op operands = some form) :
      Assembled form.expr
  | compare (op : ScalarOp) {a b : Expr α} (ha : Assembled a) (hb : Assembled b) :
      Assembled (Expr.compare op a b)
  | and {a b : Expr α} (ha : Assembled a) (hb : Assembled b) : Assembled (a.and b)
  | or {a b : Expr α} (ha : Assembled a) (hb : Assembled b) : Assembled (a.or b)
  | not {a : Expr α} (ha : Assembled a) : Assembled a.not
  | caseWhen {condition a b : Expr α} (hc : Assembled condition) (ha : Assembled a)
      (hb : Assembled b) : Assembled (Expr.caseWhen condition a b)
  | arithmetic (op : ScalarOp) (fold : α → α → Option α) {a b : Expr α} (ha : Assembled a)
      (hb : Assembled b) : Assembled (Expr.arithmetic op fold a b)
  | arithmetic₁ (op : ScalarOp) (fold : α → Option α) {a : Expr α} (ha : Assembled a) :
      Assembled (Expr.arithmetic₁ op fold a)
  | toText {a : Expr α} (ha : Assembled a) : Assembled a.toText
  | concatAll {parts : List (Expr α)} (h : ∀ p ∈ parts, Assembled p) :
      Assembled (Expr.concatAll parts)
  | substringBefore {a : Expr α} (delimiter : String) (ha : Assembled a) :
      Assembled (a.substringBefore delimiter)
  | substringAfter {a : Expr α} (delimiter : String) (ha : Assembled a) :
      Assembled (a.substringAfter delimiter)
  | trim {a : Expr α} (ha : Assembled a) : Assembled a.trim
  | replace {a : Expr α} (pattern replacement : String) (ha : Assembled a) :
      Assembled (a.replace pattern replacement)
  | length {a : Expr α} (ha : Assembled a) : Assembled a.length
  | toNumber {a : Expr α} (ha : Assembled a) : Assembled a.toNumber
  | ordinate {a : Expr α} (index : UInt32) (ha : Assembled a) : Assembled (a.ordinate index)
  | boundingBox (kind : GeometryKind) {g : Expr α} (hg : Assembled g) :
      Assembled (Expr.boundingBox kind g)
  | pointAtCoordinates {x y : Expr α} (hx : Assembled x) (hy : Assembled y) :
      Assembled (Expr.pointAtCoordinates x y)
  | lineThrough {members : List (Expr α)} (h : ∀ m ∈ members, Assembled m) :
      Assembled (Expr.lineThrough members)
  | segmentBetween {a b : Expr α} (ha : Assembled a) (hb : Assembled b) :
      Assembled (Expr.segmentBetween a b)
  | multiPointOf {members : List (Expr α)} (h : ∀ m ∈ members, Assembled m) :
      Assembled (Expr.multiPointOf members)
  | pointAt {points index : Expr α} (hp : Assembled points) (hi : Assembled index) :
      Assembled (Expr.pointAt points index)
  | toLine {points : Expr α} (hp : Assembled points) : Assembled (Expr.toLine points)
  | polygonThrough {members : List (Expr α)} (h : ∀ m ∈ members, Assembled m) :
      Assembled (Expr.polygonThrough members)

namespace Assembled

variable [Numeral α]

/-- A node over one assembled operand is assembled. -/
theorem unary {op : Op} {kind : ValueKind} {a : Expr α} (ha : Assembled a) :
    Assembled (Expr.apply op kind .unary [a]) :=
  .apply rfl (by simpa using ha)

/-- A node over two assembled operands is assembled. -/
theorem binary {op : Op} {kind : ValueKind} {a b : Expr α} (ha : Assembled a) (hb : Assembled b) :
    Assembled (Expr.apply op kind .binary [a, b]) :=
  .apply rfl (by simp [ha, hb])

/-- A connective over a list is assembled if it is over two conditions. -/
theorem foldl {f : Expr α → Expr α → Expr α} {conditions : List (Expr α)} {start : Expr α}
    (hf : ∀ a b, Assembled a → Assembled b → Assembled (f a b)) (hs : Assembled start)
    (h : ∀ c ∈ conditions, Assembled c) : Assembled (conditions.foldl f start) := by
  induction conditions generalizing start with
  | nil => exact hs
  | cons c rest ih =>
    obtain ⟨hc, hrest⟩ := List.forall_mem_cons.mp h
    exact ih (hf start c hs hc) hrest

/-- The expression of a line is a literal or a construction of its points. -/
theorem lineOf (l : Line α) : Assembled (Expr.lineOf l) := by
  refine .lineThrough fun m hm => ?_
  obtain ⟨p, -, rfl⟩ := List.mem_map.mp hm
  exact .literal (.point p)

end Assembled

/-- What the typed builders make is assembled. -/
theorem Built.assembled [Numeral α] {kind : ValueKind} {e : Expr α} (h : Built kind e) :
    Assembled e := by
  induction h with
  | literal value => exact .literal value
  | column c => exact .column c
  | absent kind => exact .absent kind
  | deepCopy _ ih => exact .deepCopy ih
  | isNull _ ih => exact .unary ih
  | isNotNull _ ih => exact .unary ih
  | count _ ih => exact .unary ih
  | and _ _ iha ihb => exact .and iha ihb
  | or _ _ iha ihb => exact .or iha ihb
  | all _ ih => exact .foldl (fun _ _ => .and) (.literal _) ih
  | any _ ih => exact .foldl (fun _ _ => .or) (.literal _) ih
  | not _ ih => exact .not ih
  | sameTruth _ _ iha ihb => exact .compare _ iha ihb
  | plus _ _ iha ihb => exact .arithmetic _ _ iha ihb
  | minus _ _ iha ihb => exact .arithmetic _ _ iha ihb
  | times _ _ iha ihb => exact .arithmetic _ _ iha ihb
  | dividedBy _ _ iha ihb => exact .arithmetic _ _ iha ihb
  | squared _ ih => exact Assembled.arithmetic .multiply (fun x y => some (x * y)) ih ih
  | negate _ ih => exact .arithmetic₁ _ _ ih
  | sqrt _ ih => exact .arithmetic₁ _ _ ih
  | least _ _ iha ihb => exact .arithmetic _ _ iha ihb
  | greatest _ _ iha ihb => exact .arithmetic _ _ iha ihb
  | compare _ _ _ iha ihb => exact .compare _ iha ihb
  | toText _ ih => exact .toText ih
  | minimum _ ih => exact .unary ih
  | maximum _ ih => exact .unary ih
  | caseNumber _ _ _ ihc iha ihb => exact .caseWhen ihc iha ihb
  | concatAll _ ih => exact .concatAll ih
  | concat _ _ iha ihb => exact .concatAll (by simp [iha, ihb])
  | substringBefore delimiter _ ih => exact .substringBefore delimiter ih
  | substringAfter delimiter _ ih => exact .substringAfter delimiter ih
  | trim _ ih => exact .trim ih
  | replace pattern replacement _ ih => exact .replace pattern replacement ih
  | length _ ih => exact .length ih
  | countOf needle _ ih =>
    have hlost := Assembled.arithmetic .subtract (fun x y => some (x - y)) (.length ih)
      (.length (.replace needle "" ih))
    exact .arithmetic _ _ hlost (.literal _)
  | toNumber _ ih => exact .toNumber ih
  | ordinate index _ ih => exact .ordinate index ih
  | sameText _ _ iha ihb => exact .compare _ iha ihb
  | otherText _ _ iha ihb => exact .compare _ iha ihb
  | caseText _ _ _ ihc iha ihb => exact .caseWhen ihc iha ihb
  | measure _ _ ih => exact .unary ih
  | relate _ _ _ iha ihb => exact .binary iha ihb
  | boundingBox _ ih => exact .boundingBox _ ih
  | pointAtCoordinates _ _ ihx ihy => exact .pointAtCoordinates ihx ihy
  | lineThrough _ ih => exact .lineThrough ih
  | lineOf l => exact .lineOf l
  | segmentBetween _ _ iha ihb => exact .segmentBetween iha ihb
  | segmentAtCoordinates _ _ _ _ ih₁ ih₂ ih₃ ih₄ =>
    exact .segmentBetween (.pointAtCoordinates ih₁ ih₂) (.pointAtCoordinates ih₃ ih₄)
  | multiPointOf _ ih => exact .multiPointOf ih
  | pointAt _ _ ihp ihi => exact .pointAt ihp ihi
  | toLine _ ih => exact .toLine ih
  | polygonThrough _ ih => exact .polygonThrough ih
  | containsPoint _ _ iha ihp => exact .binary iha ihp

namespace Expr

/-- A node has the record that its operands ask for, and the operands of a spatial node fill its
shape. -/
def SoundNode : Expr α → Prop
  | node op _ shape operands guarded =>
    guarded = (op.guards && lacksOperand op shape operands) ∧
      (op.guards = true → shape.holds operands.length = true)
  | literal _ | column _ | absent _ => True

/-- Every node has the record that its operands ask for. -/
abbrev Sound (e : Expr α) : Prop := e.Every SoundNode

/-- Literals have nothing to record. -/
theorem sound_literal (value : Literal α) : (literal value).Sound := every_literal trivial

/-- Absent values have nothing to record. -/
theorem sound_absent (kind : ValueKind) : (absent kind : Expr α).Sound := every_absent trivial

/-- A node made over sound operands is sound. -/
theorem sound_apply {op : Op} {kind : ValueKind} {shape : Shape} {operands : List (Expr α)}
    (hs : shape.holds operands.length = true) (h : ∀ e ∈ operands, e.Sound) :
    (apply op kind shape operands).Sound :=
  every_node.mpr ⟨⟨rfl, fun _ => hs⟩, h⟩

/-- A node over one sound operand is sound. -/
theorem Sound.unary {op : Op} {kind : ValueKind} {a : Expr α} (ha : a.Sound) :
    (apply op kind .unary [a]).Sound :=
  sound_apply rfl (by simpa using ha)

/-- A node over two sound operands is sound. -/
theorem Sound.binary {op : Op} {kind : ValueKind} {a b : Expr α} (ha : a.Sound) (hb : b.Sound) :
    (apply op kind .binary [a, b]).Sound :=
  sound_apply rfl (by simp [ha, hb])

/-- A construction of sound members is sound. -/
theorem sound_construct {kind : GeometryKind} {members : List (Expr α)}
    (h : ∀ m ∈ members, m.Sound) :
    (construct kind members).Sound :=
  sound_apply rfl h

/-- Portable forms of sound nodes are sound. -/
theorem inherited_sound : Inherited fun _ (e : Expr α) => e.Sound := by
  have hlaws : NodeLaws (α := α) SoundNode :=
    { literal := fun _ => trivial
      absent := fun _ => trivial
      scalar := fun _ _ _ _ _ => ⟨rfl, fun h => absurd h Bool.false_ne_true⟩
      grouped := fun _ _ _ => ⟨rfl, fun _ => rfl⟩
      accessor := fun _ _ _ _ _ => ⟨rfl, fun _ => rfl⟩ }
  refine hlaws.inherited ?_ ?_ ?_
  · intro g
    exact ⟨rfl, fun _ => rfl⟩
  · intro kind op a b _
    exact ⟨rfl, fun _ => rfl⟩
  · intro members
    exact ⟨rfl, fun _ => rfl⟩

/-- The operands of a node that applies an operator occur in it. -/
theorem occursIn_of_spatialOperands? {op : SpatialOp} {e m : Expr α} {operands : List (Expr α)}
    (h : e.spatialOperands? op = some operands) (hm : m ∈ operands) : m.OccursIn e := by
  unfold spatialOperands? at h
  split at h
  · split at h
    · obtain rfl := Option.some.inj h
      exact .operand hm .self
    · contradiction
  · contradiction

/-- A disjunction is a literal, one of its conditions or a node over both. -/
theorem Sound.or {a b : Expr α} (ha : a.Sound) (hb : b.Sound) : (a.or b).Sound := by
  unfold Expr.or connective
  split
  · exact sound_literal _
  split
  · exact hb
  split
  · exact ha
  · exact ha.binary hb

/-- A box is its operand or a node over it. -/
theorem Sound.boundingBox (kind : GeometryKind) {g : Expr α} (hg : g.Sound) :
    (Expr.boundingBox kind g).Sound := by
  unfold Expr.boundingBox
  split
  · exact hg
  · exact hg.unary

/-- A point is a literal or a construction of its coordinates. -/
theorem Sound.pointAtCoordinates {x y : Expr α} (hx : x.Sound) (hy : y.Sound) :
    (Expr.pointAtCoordinates x y).Sound := by
  unfold Expr.pointAtCoordinates
  split
  · exact sound_literal _
  · exact sound_construct (by simp [hx, hy])

/-- A segment is a literal or a construction of its ends. -/
theorem Sound.segmentBetween {a b : Expr α} (ha : a.Sound) (hb : b.Sound) :
    (Expr.segmentBetween a b).Sound := by
  unfold Expr.segmentBetween
  split
  · exact sound_literal _
  · exact sound_construct (by simp [ha, hb])

/-- A collection is a literal or a construction of its members. -/
theorem sound_multiPointOf {members : List (Expr α)} (h : ∀ m ∈ members, m.Sound) :
    (multiPointOf members).Sound := by
  unfold multiPointOf
  split
  · split
    · exact sound_literal _
    · exact sound_construct h
  · exact sound_construct h

/-- A collection becomes a line through its members, or is converted by a node. -/
theorem Sound.toLine {points : Expr α} (hp : points.Sound) : (Expr.toLine points).Sound := by
  unfold Expr.toLine
  split
  · refine inherited_sound.lineThrough fun m hm => ?_
    obtain ⟨p, -, rfl⟩ := List.mem_map.mp hm
    exact sound_literal _
  · split
    · next members hm =>
      exact inherited_sound.lineThrough fun m h =>
        hp.of_occursIn (occursIn_of_spatialOperands? hm h)
    · exact hp.unary

section Coordinate

variable [Coordinate α]

/-- A comparison is a literal or a node. -/
theorem Sound.compare (op : ScalarOp) {a b : Expr α} (ha : a.Sound) (hb : b.Sound) :
    (Expr.compare op a b).Sound := by
  unfold Expr.compare
  split
  · exact sound_literal _
  · exact ha.binary hb

/-- A polygon is a literal or a construction of its corners. -/
theorem sound_polygonThrough {members : List (Expr α)} (h : ∀ m ∈ members, m.Sound) :
    (polygonThrough members).Sound := by
  unfold polygonThrough
  split
  · exact sound_literal _
  · exact sound_construct h

end Coordinate

/-- Arithmetic is folded to a literal or a node. -/
theorem Sound.arithmetic (op : ScalarOp) (fold : α → α → Option α) {a b : Expr α} (ha : a.Sound)
    (hb : b.Sound) : (Expr.arithmetic op fold a b).Sound := by
  unfold Expr.arithmetic
  split
  · split
    · exact sound_literal _
    · exact ha.binary hb
  · exact ha.binary hb

/-- The same for one operand. -/
theorem Sound.arithmetic₁ (op : ScalarOp) (fold : α → Option α) {a : Expr α} (ha : a.Sound) :
    (Expr.arithmetic₁ op fold a).Sound := by
  unfold Expr.arithmetic₁
  split
  · exact sound_literal _
  · exact ha.unary

section Numeral

variable [Numeral α]

/-- A number that is read off a text is a literal or a node. -/
theorem Sound.toNumber {a : Expr α} (ha : a.Sound) : a.toNumber.Sound := by
  unfold Expr.toNumber
  split
  · exact sound_literal _
  · exact ha.unary

/-- A member by an index is a node, or absent where the index is no natural number. -/
theorem Sound.pointAt {points index : Expr α} (hp : points.Sound) (hi : index.Sound) :
    (Expr.pointAt points index).Sound := by
  unfold Expr.pointAt
  split
  · split
    · exact hp.binary hi
    · exact sound_absent _
  · exact hp.binary hi

end Numeral

end Expr

/-- In what is assembled every node has the record that its operands ask for. -/
theorem Assembled.sound [Numeral α] {e : Expr α} (h : Assembled e) : e.Sound := by
  have hP := inherited_sound (α := α)
  induction h with
  | literal value => exact sound_literal value
  | column c => exact every_column trivial
  | absent kind => exact sound_absent kind
  | apply hs _ ih => exact sound_apply hs ih
  | operand _ he ih => exact (every_node.mp ih).2 _ he
  | deepCopy _ ih => rwa [deepCopy_eq]
  | @emulated kind op operands form _ hf ih =>
    have hnode : (spatial kind op .nary operands).Sound := sound_apply rfl ih
    exact hP.every_form hnode hf
  | compare op _ _ iha ihb => exact iha.compare op ihb
  | and _ _ iha ihb => exact hP.and iha ihb
  | or _ _ iha ihb => exact iha.or ihb
  | not _ ih => exact hP.not ih
  | caseWhen _ _ _ ihc iha ihb => exact hP.caseWhen ihc iha ihb
  | arithmetic op fold _ _ iha ihb => exact iha.arithmetic op fold ihb
  | arithmetic₁ op fold _ ih => exact ih.arithmetic₁ op fold
  | toText _ ih => exact hP.toText ih
  | concatAll _ ih => exact hP.concatAll ih
  | substringBefore delimiter _ ih => exact hP.substringBefore delimiter ih
  | substringAfter delimiter _ ih => exact hP.substringAfter delimiter ih
  | trim _ ih => exact hP.trim ih
  | replace pattern replacement _ ih => exact hP.replace pattern replacement ih
  | length _ ih => exact hP.length ih
  | toNumber _ ih => exact ih.toNumber
  | ordinate index _ ih => exact hP.ordinate index ih
  | boundingBox kind _ ih => exact ih.boundingBox kind
  | pointAtCoordinates _ _ ihx ihy => exact ihx.pointAtCoordinates ihy
  | lineThrough _ ih => exact hP.lineThrough ih
  | segmentBetween _ _ iha ihb => exact iha.segmentBetween ihb
  | multiPointOf _ ih => exact sound_multiPointOf ih
  | pointAt _ _ ihp ihi => exact ihp.pointAt ihi
  | toLine _ ih => exact ih.toLine
  | polygonThrough _ ih => exact sound_polygonThrough ih

section Compile

variable [Numeral α]

/-- A null test compiles to the null test of what its operand compiles to, errors included. -/
theorem compile_isNull (r : Renderer α) (e : Expr α) :
    compile r e.isNull = (compile r e).map Renderer.nullTestSql := by
  change compile r (.node (.scalar .isNull) .boolean .unary [e] false) = _
  rw [compile, compileAll_eq_mapM]
  cases h : compile r e with
  | error error => simp [h]; rfl
  | ok sql => simp [h]; rfl

/-- A guarded node compiles like the null test of its first operand. -/
theorem compile_guarded (r : Renderer α) (op : Op) (kind : ValueKind) (shape : Shape)
    (operands : List (Expr α)) :
    compile r (.node op kind shape operands true) =
      compile r (operands.head?.getD (.absent kind)).isNull := by
  rw [compile_isNull, compile, nullSubject]

/-- In what any sequence of steps leads to, every node at every depth is guarded exactly if its
operator is spatial and a required operand is missing. A copy is the same expression. For every
renderer a guarded node compiles, or fails to, like the null test of its first operand, or of an
absent value where it has none. -/
theorem guards_of_assembled {e : Expr α} (h : Assembled e) :
    (∀ (op : Op) (kind : ValueKind) (shape : Shape) (operands : List (Expr α)) (guarded : Bool),
      (node op kind shape operands guarded).OccursIn e →
        guarded = (op.guards && lacksOperand op shape operands)) ∧
    e.deepCopy = e ∧
    ∀ (r : Renderer α) (op : Op) (kind : ValueKind) (shape : Shape) (operands : List (Expr α)),
      compile r (.node op kind shape operands true) =
        compile r (operands.head?.getD (.absent kind)).isNull := by
  refine ⟨?_, deepCopy_eq e, compile_guarded⟩
  intro op kind shape operands guarded ho
  exact (h.sound _ ho).1

/-- The zones of a plan. -/
def zones : Expr Float := .column ⟨⟨"plan", none⟩, "zone", .geometry .polygon⟩

/-- A zone that was left out. -/
def noZone : Expr Float := .absent (.geometry .polygon)

/-- A node in the portable form of an overlap with it: what it shares with the others differs from
it. -/
def sharedDiffers : Expr Float := spatial₂ .polygon .notEquals (intersection noZone zones) noZone

/-- The node is guarded, and compiles like the null test of what is shared. -/
theorem guards_of_assembled_sharedDiffers :
    sharedDiffers.OccursIn (emulateOverlaps noZone zones) ∧ sharedDiffers.isGuarded = true ∧
      ∀ r : Renderer Float,
        compile r sharedDiffers = compile r (intersection noZone zones).isNull := by
  have hform : emulate? .polygon .overlaps [noZone, zones] =
      some (.value (emulateOverlaps noZone zones)) := rfl
  have hoperands : ∀ e ∈ [noZone, zones], Assembled e := by
    simp [noZone, zones, Assembled.absent, Assembled.column]
  have hoccurs : sharedDiffers.OccursIn (emulateOverlaps noZone zones) := by
    have hinner : sharedDiffers.OccursIn
        ((folded .polygon .intersects noZone zones).and sharedDiffers) :=
      .operand (List.mem_cons_of_mem _ List.mem_cons_self) .self
    exact .operand List.mem_cons_self hinner
  obtain ⟨hguards, -, hcompile⟩ := guards_of_assembled (.emulated hoperands hform)
  have hguarded := hguards _ _ _ _ _ hoccurs
  exact ⟨hoccurs, hguarded, fun r => hcompile r _ _ _ [intersection noZone zones, noZone]⟩

end Compile

end SpatialSql
