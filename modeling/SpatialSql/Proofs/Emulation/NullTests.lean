import SpatialSql.Proofs.Expr.Guards

/-!
# Null tests in portable forms

A node is guarded for a missing operand after the first, so a formula that puts the first operand
of its node in a later place can make a null test that nobody asked for. All formulas but two
are free of this: their guarded nodes are those of the operands, and the line through too few
members of a collection. An overlap compares what is shared with the first operand, and a
containment is tested the other way round; where that operand is missing, each makes one null
test of its own.
-/

namespace SpatialSql

open SpatialSql.Expr SpatialSql.Emulation

variable {α : Type}

namespace Expr

@[simp] theorem isGuarded_spatial₁ (kind : GeometryKind) (op : SpatialOp) (g : Expr α) :
    (spatial₁ kind op g).isGuarded = g.isAbsent := by
  simp [spatial₁, spatial, apply, isGuarded, Op.guards, lacksOperand]

@[simp] theorem isGuarded_spatial₂ (kind : GeometryKind) (op : SpatialOp) (a b : Expr α) :
    (spatial₂ kind op a b).isGuarded = b.includesNull := by
  simp [spatial₂, spatial, apply, isGuarded, Op.guards, lacksOperand]

/-- A sound node over one operand that is no null test has the operand. -/
theorem SoundNode.isAbsent_eq_false {kind : GeometryKind} {op : SpatialOp} {valueKind : ValueKind}
    {shape : Shape} {g : Expr α}
    (h : SoundNode (node (.spatial kind op) valueKind shape [g] false)) : g.isAbsent = false := by
  obtain ⟨hguard, hshape⟩ := h
  have hholds := hshape rfl
  cases shape with
  | unary => simpa [Op.guards, lacksOperand] using hguard
  | binary => contradiction
  | ternary => contradiction
  | nary =>
    simp [Op.guards, lacksOperand, includesNull] at hguard
    exact hguard.2.1

/-- A sound node over two operands that is no null test has the second one. -/
theorem SoundNode.includesNull_eq_false {kind : GeometryKind} {op : SpatialOp}
    {valueKind : ValueKind} {shape : Shape} {a b : Expr α}
    (h : SoundNode (node (.spatial kind op) valueKind shape [a, b] false)) :
    b.includesNull = false := by
  obtain ⟨hguard, hshape⟩ := h
  have hholds := hshape rfl
  cases shape with
  | unary => contradiction
  | binary => simpa [Op.guards, lacksOperand] using hguard
  | ternary => contradiction
  | nary =>
    simp [Op.guards, lacksOperand] at hguard
    exact hguard.2.2

end Expr

namespace Emulation

/-- A node that is guarded is among the known ones. -/
def Accounted (known : Expr α → Prop) (n : Expr α) : Prop := n.isGuarded = true → known n

/-- Formulas make no null test while they look up coordinates, texts and bounds. -/
theorem nodeLaws_accounted (known : Expr α → Prop) : NodeLaws (Accounted known) where
  literal value h := by contradiction
  absent kind h := by contradiction
  scalar op kind shape operands _ h := by contradiction
  grouped _ _ a h := by contradiction
  accessor kind op ha g hn h := by
    rw [isGuarded_spatial₁, hn] at h
    contradiction

/-- The line through the members of a collection, which stands in for turning the collection into a
line. -/
def IsMemberLine (op : SpatialOp) (operands : List (Expr α)) (n : Expr α) : Prop :=
  op = .toLine ∧ ∃ points members, operands = [points] ∧
    points.spatialOperands? .construct = some members ∧ n = construct .line members

/-- The null tests that formulas make of their own: of what a missing or guarded polygon shares with
another one, and of the polygon that a guarded one should lie within. -/
inductive StrayTest : SpatialOp → List (Expr α) → Expr α → Prop
  | overlaps {a : Expr α} (b : Expr α) (ha : a.includesNull = true) :
      StrayTest .overlaps [a, b] (spatial₂ .polygon .notEquals (intersection a b) a)
  | within {a : Expr α} (b : Expr α) (ha : a.isGuarded = true) :
      StrayTest .within [a, b] (spatial₂ .polygon .contains b a)

/-- The null tests that are expected in a portable form, and the stray ones. -/
def Known (op : SpatialOp) (operands : List (Expr α)) (n : Expr α) : Prop :=
  (∃ e ∈ operands, n.OccursIn e) ∨ IsMemberLine op operands n ∨ StrayTest op operands n

section Accounted

variable {op : SpatialOp} {operands : List (Expr α)}

/-- The null tests in an operand are accounted for. -/
theorem every_accounted_operand {e : Expr α} (he : e ∈ operands) :
    e.Every (Accounted (Known op operands)) :=
  fun _ hn _ => .inl ⟨e, he, hn⟩

/-- A node over two operands is accounted for if it is where its second operand is missing. -/
theorem every_accounted_spatial₂ {known : Expr α → Prop} {kind : GeometryKind} {op : SpatialOp}
    {a b : Expr α} (ha : a.Every (Accounted known)) (hb : b.Every (Accounted known))
    (hn : b.includesNull = true → known (spatial₂ kind op a b)) :
    (spatial₂ kind op a b).Every (Accounted known) := by
  refine every_node.mpr ⟨fun h => hn ?_, by simp [ha, hb]⟩
  rw [← isGuarded_spatial₂ kind op a b]
  exact h

end Accounted

section Formulas

variable [Numeral α]

/-- A collection that is given is turned into a line without a null test but that of its members. -/
theorem accounted_emulateToLine {points : Expr α} (hp : points.isAbsent = false) :
    (emulateToLine points).Satisfies (fun _ e => e.Every (Accounted (Known .toLine [points])))
      (.geometry .line) := by
  have hpoints : points.Every (Accounted (Known .toLine [points])) :=
    every_accounted_operand (List.mem_singleton_self points)
  refine (nodeLaws_accounted _).carried.emulateToLine hpoints ?_ ?_
  · refine every_node.mpr ⟨fun h => ?_, by simpa using hpoints⟩
    change (spatial₁ .multiPoint .numberOfPoints points).isGuarded = true at h
    rw [isGuarded_spatial₁, hp] at h
    contradiction
  · intro members hm
    have hmembers (m : Expr α) (h : m ∈ members) : m.Every (Accounted (Known .toLine [points])) :=
      hpoints.of_occursIn (occursIn_of_spatialOperands? hm h)
    have hline : (construct .line members).Every (Accounted (Known .toLine [points])) :=
      every_node.mpr ⟨fun _ => .inr (.inl ⟨rfl, points, members, rfl, hm, rfl⟩), hmembers⟩
    unfold lineThrough
    split
    · split
      · exact (nodeLaws_accounted _).carried.literal (.line _)
      · exact hline
    · exact hline

/-- An overlap makes one null test, of what a missing first polygon shares with the second. -/
theorem accounted_emulateOverlaps (a : Expr α) {b : Expr α} (hb : b.includesNull = false) :
    (emulateOverlaps a b).Every (Accounted (Known .overlaps [a, b])) := by
  have hP := (nodeLaws_accounted (Known .overlaps [a, b])).carried
  have hfirst : a.Every (Accounted (Known .overlaps [a, b])) := every_accounted_operand (by simp)
  have hsecond : b.Every (Accounted (Known .overlaps [a, b])) := every_accounted_operand (by simp)
  have hgiven {kind : GeometryKind} {op : SpatialOp} {c : Expr α}
      (hc : c.Every (Accounted (Known .overlaps [a, b]))) :
      (spatial₂ kind op c b).Every (Accounted (Known .overlaps [a, b])) :=
    every_accounted_spatial₂ hc hsecond fun h => absurd h (by simp [hb])
  have hshared : (intersection a b).Every (Accounted (Known .overlaps [a, b])) := hgiven hfirst
  have hdiffers : (spatial₂ .polygon .notEquals (intersection a b) a).Every
      (Accounted (Known .overlaps [a, b])) :=
    every_accounted_spatial₂ hshared hfirst fun ha => .inr (.inr (.overlaps b ha))
  unfold emulateOverlaps
  split
  · exact hP.literal (.bool _)
  · exact hP.and (hP.and (hP.folded rfl (hgiven hfirst)) hdiffers) (hgiven hshared)

/-- Lying within makes one null test, of the outer polygon where the inner one is guarded. -/
theorem accounted_emulateWithin (a b : Expr α) :
    (emulateWithin a b).Every (Accounted (Known .within [a, b])) := by
  have hP := (nodeLaws_accounted (Known .within [a, b])).carried
  unfold emulateWithin
  split
  · exact hP.absent _
  · next ha =>
    refine hP.folded rfl (every_accounted_spatial₂ (every_accounted_operand (by simp))
      (every_accounted_operand (by simp)) fun hn => ?_)
    have hguarded : a.isGuarded = true := by simpa [includesNull, ha] using hn
    exact .inr (.inr (.within b hguarded))

/-- The null tests in the portable form of a sound node are known. A test over the two operands as
they stand is guarded only where the node would be. -/
theorem accounted_form {kind : GeometryKind} {op : SpatialOp} {valueKind : ValueKind}
    {shape : Shape} {operands : List (Expr α)} {form : Emulated α}
    (h : SoundNode (node (.spatial kind op) valueKind shape operands false))
    (hf : emulate? kind op operands = some form) :
    form.expr.Every (Accounted (Known op operands)) := by
  have hP := (nodeLaws_accounted (Known op operands)).carried
  have hnode : (node (.spatial kind op) valueKind shape operands false).Every
      (Accounted (Known op operands)) :=
    every_node.mpr ⟨fun h => by contradiction, fun e he => every_accounted_operand he⟩
  have htest {op' : SpatialOp} {a b : Expr α} (ho : operands = [a, b]) :
      (spatial₂ kind op' a b).Every (Accounted (Known op operands)) := by
    subst ho
    refine every_accounted_spatial₂ (every_accounted_operand (by simp))
      (every_accounted_operand (by simp)) fun hn => ?_
    rw [h.includesNull_eq_false] at hn
    contradiction
  unfold emulate? at hf
  split at hf
  · obtain rfl := Option.some.inj hf
    exact hP.not (hP.folded rfl (htest rfl))
  · obtain rfl := Option.some.inj hf
    exact hP.not (hP.folded rfl (htest rfl))
  · obtain rfl := Option.some.inj hf
    exact accounted_emulateOverlaps _ h.includesNull_eq_false
  · obtain rfl := Option.some.inj hf
    exact accounted_emulateWithin _ _
  · refine hP.every_form hnode ?_ hf
    rintro points rfl rfl rfl
    exact accounted_emulateToLine h.isAbsent_eq_false

omit [Numeral α] in
/-- A null is no polygon. -/
theorem polygon?_of_includesNull {a : Expr α} (ha : a.includesNull = true) : a.polygon? = none := by
  cases a with
  | literal value => contradiction
  | column c | absent kind | node op kind shape operands guarded => rfl

/-- The null test of what is shared is part of an overlap with a missing first polygon. -/
theorem occursIn_emulateOverlaps {a b : Expr α} (ha : a.includesNull = true)
    (hb : b.includesNull = false) :
    (spatial₂ .polygon .notEquals (intersection a b) a).OccursIn (emulateOverlaps a b) := by
  have hpolygon := polygon?_of_includesNull ha
  have hform : basic? .polygon .intersects [a, b] = none := by
    change onPolygons? Planar.polygonsIntersect a b = none
    rw [onPolygons?, hpolygon]
  have hfolded : folded .polygon .intersects a b = spatial₂ .polygon .intersects a b := by
    simp [folded, hb, hform]
  have hformula : emulateOverlaps a b =
      ((spatial₂ .polygon .intersects a b).and
        (spatial₂ .polygon .notEquals (intersection a b) a)).and
        (spatial₂ .polygon .notEquals (intersection a b) b) := by
    simp only [emulateOverlaps, hpolygon, hfolded]
  have hinner : (spatial₂ .polygon .notEquals (intersection a b) a).OccursIn
      ((spatial₂ .polygon .intersects a b).and
        (spatial₂ .polygon .notEquals (intersection a b) a)) :=
    .operand (List.mem_cons_of_mem _ List.mem_cons_self) .self
  rw [hformula]
  exact .operand List.mem_cons_self hinner

/-- A guarded inner polygon turns lying within into the guarded test the other way round. -/
theorem emulateWithin_of_isGuarded {a : Expr α} (b : Expr α) (ha : a.isGuarded = true) :
    emulateWithin a b = spatial₂ .polygon .contains b a := by
  have habsent : a.isAbsent = false := isAbsent_eq_false (by rintro kind rfl; contradiction)
  simp [emulateWithin, folded, habsent, includesNull, ha]

/-- A node outweighs both of its operands. -/
theorem weight_lt_spatial₂ (kind : GeometryKind) (op : SpatialOp) (a b : Expr α) :
    a.weight < (spatial₂ kind op a b).weight ∧ b.weight < (spatial₂ kind op a b).weight :=
  ⟨Expr.weight_operand_lt List.mem_cons_self,
    Expr.weight_operand_lt (List.mem_cons_of_mem _ List.mem_cons_self)⟩

/-- A stray test is heavier than the operands, so it occurs in none of them. -/
theorem StrayTest.not_occursIn {op : SpatialOp} {operands : List (Expr α)} {n : Expr α}
    (h : StrayTest op operands n) : ∀ e ∈ operands, ¬ n.OccursIn e := by
  have hlight : ∀ e ∈ operands, e.weight < n.weight := by
    cases h with
    | @overlaps a b _ =>
      have hshared := (weight_lt_spatial₂ .polygon .intersection a b).2
      have htest := weight_lt_spatial₂ .polygon .notEquals (intersection a b) a
      simpa using ⟨htest.2, Nat.lt_trans hshared htest.1⟩
    | @within a b _ =>
      have htest := weight_lt_spatial₂ .polygon .contains b a
      simpa using htest.symm
  intro e he ho
  have hle := ho.weight_le
  have hlt := hlight e he
  omega

/-- A stray test is part of the portable form, and it is guarded. -/
theorem StrayTest.occursIn_form {kind : GeometryKind} {op : SpatialOp} {valueKind : ValueKind}
    {shape : Shape} {operands : List (Expr α)} {form : Emulated α} {n : Expr α}
    (hk : op.offeredFor kind = true)
    (h : SoundNode (node (.spatial kind op) valueKind shape operands false))
    (hf : emulate? kind op operands = some form) (hs : StrayTest op operands n) :
    n.OccursIn form.expr ∧ n.isGuarded = true := by
  cases hs with
  | overlaps b ha =>
    obtain rfl : kind = .polygon := of_decide_eq_true hk
    obtain rfl := Option.some.inj hf
    refine ⟨occursIn_emulateOverlaps ha h.includesNull_eq_false, ?_⟩
    rw [isGuarded_spatial₂, ha]
  | within b ha =>
    obtain rfl : kind = .polygon := of_decide_eq_true hk
    obtain rfl := Option.some.inj hf
    refine ⟨?_, ?_⟩
    · rw [Emulated.expr, emulateWithin_of_isGuarded b ha]
      exact .self
    · rw [isGuarded_spatial₂, includesNull, ha, Bool.or_true]

/-- In the portable form of an unguarded node that the typed builders make, the guarded nodes that
occur in no operand and are not the line through the members of a collection are exactly the stray
tests. There are none, unless polygons are tested for overlap and the first one is missing or
guarded, or a guarded polygon is tested for lying within another one. -/
theorem null_test_brought_in_iff {resultKind valueKind : ValueKind} {kind : GeometryKind}
    {op : SpatialOp} {shape : Shape} {operands : List (Expr α)} {form : Emulated α}
    (h : Built resultKind (.node (.spatial kind op) valueKind shape operands false))
    (hf : emulate? kind op operands = some form) (n : Expr α) :
    (n.OccursIn form.expr ∧ n.isGuarded = true ∧ (∀ e ∈ operands, ¬ n.OccursIn e) ∧
      ¬ IsMemberLine op operands n) ↔ StrayTest op operands n := by
  have hsound := h.assembled.sound.self
  have hoffered := h.hasKind.wellKinded.takes.offered
  constructor
  · rintro ⟨hoccurs, hguarded, hnew, hline⟩
    rcases accounted_form hsound hf n hoccurs hguarded with ⟨e, he, hn⟩ | hmember | hstray
    · exact absurd hn (hnew e he)
    · exact absurd hmember hline
    · exact hstray
  · intro hs
    obtain ⟨hoccurs, hguarded⟩ := hs.occursIn_form hoffered hsound hf
    refine ⟨hoccurs, hguarded, hs.not_occursIn, ?_⟩
    rintro ⟨rfl, -⟩
    cases hs

end Formulas

/-- A polygon through no points, which the builders guard. -/
def emptyZone : Expr Float := polygonThrough []

/-- Whether the zones of a plan contain it. -/
def zonesContainEmpty : Expr Float := spatial₂ .polygon .contains zones emptyZone

/-- The test of the zones is one that the node does not ask for. -/
theorem strayTest_zonesContainEmpty : StrayTest .within [emptyZone, zones] zonesContainEmpty :=
  .within zones rfl

/-- The builders make the node that asks whether it lies within the zones. -/
theorem built_emptyZone_within : Built .boolean (spatial₂ .polygon .within emptyZone zones) := by
  have hwithin : SpatialOp.within ∈ GeometryKind.polygon.paired := by decide
  have hempty : Built (.geometry .polygon) emptyZone := .polygonThrough (by simp)
  exact .relate hwithin hempty (.column ⟨⟨"plan", none⟩, "zone", .geometry .polygon⟩)

/-- Its portable form brings in a null test of the zones. -/
theorem null_test_brought_in_iff_emptyZone :
    zonesContainEmpty.OccursIn (emulateWithin emptyZone zones) ∧
      zonesContainEmpty.isGuarded = true ∧
      (∀ e ∈ [emptyZone, zones], ¬ zonesContainEmpty.OccursIn e) ∧
      ¬ IsMemberLine .within [emptyZone, zones] zonesContainEmpty := by
  have hform : emulate? .polygon .within [emptyZone, zones] =
      some (.value (emulateWithin emptyZone zones)) := rfl
  exact (null_test_brought_in_iff built_emptyZone_within hform zonesContainEmpty).mpr
    strayTest_zonesContainEmpty

/-- Portable forms do bring in null tests. -/
theorem not_forall_null_test_known :
    ¬ ∀ (resultKind valueKind : ValueKind) (kind : GeometryKind) (op : SpatialOp) (shape : Shape)
      (operands : List (Expr Float)) (form : Emulated Float),
      Built resultKind (.node (.spatial kind op) valueKind shape operands false) →
      emulate? kind op operands = some form →
      ∀ n : Expr Float, n.OccursIn form.expr → n.isGuarded = true →
        (∃ e ∈ operands, n.OccursIn e) ∨ IsMemberLine op operands n := by
  intro h
  have hstray := strayTest_zonesContainEmpty
  have hoccurs : zonesContainEmpty.OccursIn (emulateWithin emptyZone zones) := by
    rw [emulateWithin_of_isGuarded zones rfl]
    exact .self
  rcases h _ _ _ _ _ _ _ built_emptyZone_within rfl zonesContainEmpty hoccurs rfl with
    ⟨e, he, hn⟩ | ⟨hop, -⟩
  · exact hstray.not_occursIn e he hn
  · contradiction

end Emulation

end SpatialSql
