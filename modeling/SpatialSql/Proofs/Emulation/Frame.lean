import SpatialSql.Proofs.Emulation.Nodes

/-!
# Portable forms stay within their node

The query around an expression is laid out from the tables that the expression refers to and
from whether it ranges over a group. Its SQL may come from portable forms, so these must not
refer to further tables, and must range over a group only where the node does. The extent of
a group always does: its form takes the least and the greatest bound of the group.
-/

namespace SpatialSql

open SpatialSql.Expr SpatialSql.Emulation

variable {α : Type}

theorem Table.mem_insert {s t : Table} {tables : List Table} :
    s ∈ t.insert tables ↔ s = t ∨ s ∈ tables := by
  induction tables with
  | nil => simp [Table.insert]
  | cons u rest ih =>
    unfold Table.insert
    split
    · next h => simp [h]
    · split
      · simp
      · simp only [List.mem_cons, ih]
        exact or_left_comm

namespace Expr

/-- A column of the table occurs in the expression. -/
def RefersTo (e : Expr α) (t : Table) : Prop := ∃ c : Column, (column c).OccursIn e ∧ c.table = t

/-- A node refers to the tables of its operands. -/
theorem refersTo_node {op : Op} {kind : ValueKind} {shape : Shape} {operands : List (Expr α)}
    {guarded : Bool} {t : Table} :
    (node op kind shape operands guarded).RefersTo t ↔ ∃ e ∈ operands, e.RefersTo t := by
  constructor
  · rintro ⟨c, hc, ht⟩
    cases hc with
    | operand he hc => exact ⟨_, he, c, hc, ht⟩
  · rintro ⟨e, he, c, hc, ht⟩
    exact ⟨c, .operand he hc, ht⟩

mutual

/-- Collecting adds the tables that an expression refers to. -/
theorem mem_collectTables (e : Expr α) (tables : List Table) (t : Table) :
    t ∈ e.collectTables tables ↔ t ∈ tables ∨ e.RefersTo t := by
  cases e with
  | literal value =>
    have hnone : ¬ (literal value).RefersTo t := by
      rintro ⟨c, hc, -⟩
      cases hc
    simp [collectTables, hnone]
  | column c =>
    have hself : (column c : Expr α).RefersTo t ↔ t = c.table := by
      constructor
      · rintro ⟨d, hd, rfl⟩
        cases hd
        rfl
      · rintro rfl
        exact ⟨c, .self, rfl⟩
    rw [collectTables, Table.mem_insert, hself]
    exact or_comm
  | absent kind =>
    have hnone : ¬ (absent kind : Expr α).RefersTo t := by
      rintro ⟨c, hc, -⟩
      cases hc
    simp [collectTables, hnone]
  | node op kind shape operands guarded =>
    rw [collectTables, mem_collectTablesOf operands, refersTo_node]

/-- Collecting adds the tables that the expressions of a list refer to. -/
theorem mem_collectTablesOf (es : List (Expr α)) (tables : List Table) (t : Table) :
    t ∈ collectTablesOf tables es ↔ t ∈ tables ∨ ∃ e ∈ es, e.RefersTo t := by
  cases es with
  | nil => simp [collectTablesOf]
  | cons e rest =>
    rw [collectTablesOf, mem_collectTablesOf rest, mem_collectTables e, or_assoc]
    simp only [List.mem_cons, exists_eq_or_imp]

end

/-- The tables of an expression are those of the columns that occur in it. -/
theorem mem_tables {e : Expr α} {t : Table} : t ∈ e.tables ↔ e.RefersTo t := by
  rw [tables, mem_collectTables]
  simp

/-- A list holds an aggregate if one of its members does. -/
theorem anyAggregate_iff {es : List (Expr α)} :
    anyAggregate es = true ↔ ∃ e ∈ es, e.isAggregate = true := by
  induction es with
  | nil => simp [anyAggregate]
  | cons e rest ih => simp [anyAggregate, ih]

/-- A node is an aggregate by its operator or by an operand. -/
theorem isAggregate_node {op : Op} {kind : ValueKind} {shape : Shape} {operands : List (Expr α)}
    {guarded : Bool} :
    (node op kind shape operands guarded).isAggregate = true ↔
      op.isAggregate = true ∨ ∃ e ∈ operands, e.isAggregate = true := by
  rw [isAggregate, Bool.or_eq_true, anyAggregate_iff]

/-- What an aggregate occurs in is an aggregate. -/
theorem OccursIn.isAggregate {s e : Expr α} (h : s.OccursIn e) (hs : s.isAggregate = true) :
    e.isAggregate = true := by
  induction h with
  | self => exact hs
  | operand he _ ih => exact isAggregate_node.mpr (.inr ⟨_, he, ih⟩)

mutual

/-- In an aggregate some operator ranges over a group. -/
theorem exists_aggregate (e : Expr α) (h : e.isAggregate = true) :
    ∃ op kind shape operands guarded,
      (node op kind shape operands guarded).OccursIn e ∧ op.isAggregate = true := by
  cases e with
  | literal value | column c | absent kind => contradiction
  | node op kind shape operands guarded =>
    rcases isAggregate_node.mp h with hop | hmem
    · exact ⟨op, kind, shape, operands, guarded, .self, hop⟩
    · obtain ⟨e, he, op', kind', shape', operands', guarded', hs, hop⟩ :=
        exists_aggregate_of_mem operands hmem
      exact ⟨op', kind', shape', operands', guarded', .operand he hs, hop⟩

/-- In a list with an aggregate some operator ranges over a group. -/
theorem exists_aggregate_of_mem (es : List (Expr α)) (h : ∃ e ∈ es, e.isAggregate = true) :
    ∃ e ∈ es, ∃ op kind shape operands guarded,
      (node op kind shape operands guarded).OccursIn e ∧ op.isAggregate = true := by
  cases es with
  | nil => simp at h
  | cons e rest =>
    rcases (List.exists_mem_cons_iff _ _ _).mp h with ha | hrest
    · exact ⟨e, List.mem_cons_self, exists_aggregate e ha⟩
    · obtain ⟨e', he', hs⟩ := exists_aggregate_of_mem rest hrest
      exact ⟨e', List.mem_cons_of_mem _ he', hs⟩

end

/-- A column stays within the tables, and an operator ranges over a group only if that is
allowed. -/
def StaysWithin (tables : List Table) (grouped : Bool) : Expr α → Prop
  | column c => c.table ∈ tables
  | node op _ _ _ _ => op.isAggregate = true → grouped = true
  | literal _ | absent _ => True

/-- If everything in an expression stays within tables, so does the expression, and it ranges over a
group only if that is allowed. -/
theorem Every.staysWithin {tables : List Table} {grouped : Bool} {e : Expr α}
    (h : e.Every (StaysWithin tables grouped)) :
    e.tables ⊆ tables ∧ (e.isAggregate = true → grouped = true) := by
  constructor
  · intro t ht
    obtain ⟨c, hc, rfl⟩ := mem_tables.mp ht
    exact h _ hc
  · intro ha
    obtain ⟨op, kind, shape, operands, guarded, hs, hop⟩ := exists_aggregate e ha
    exact h _ hs hop

/-- An expression stays within its own tables, and ranges over a group if one of its operators
does. -/
theorem every_staysWithin_self (e : Expr α) : e.Every (StaysWithin e.tables e.isAggregate) := by
  intro s hs
  cases s with
  | literal value => trivial
  | column c => exact mem_tables.mpr ⟨c, hs, rfl⟩
  | absent kind => trivial
  | node op kind shape operands guarded =>
    intro hop
    exact hs.isAggregate (isAggregate_node.mpr (.inl hop))

/-- Portable forms stay within what their node stays within. -/
theorem inherited_staysWithin (tables : List Table) (grouped : Bool) :
    Inherited fun _ (e : Expr α) => e.Every (StaysWithin tables grouped) := by
  have hlaws : NodeLaws (StaysWithin (α := α) tables grouped) :=
    { literal := fun _ => trivial
      absent := fun _ => trivial
      scalar := fun op _ _ _ ha hop => absurd hop (by simp [Op.isAggregate, ha])
      grouped := fun _ hx _ _ => hx rfl
      accessor := fun _ _ ha _ _ hop => absurd hop (by simp [Op.isAggregate, ha]) }
  refine hlaws.inherited ?_ ?_ ?_
  · intro g hop
    contradiction
  · intro kind op a b ha hop
    exact absurd hop (by simp [Op.isAggregate, ha])
  · intro members hop
    contradiction

/-- Merging literals keeps every part that is no literal. -/
theorem mem_mergeParts {p : Expr α} {parts : List (Expr α)} (hp : p ∈ parts)
    (hl : p.literal? = none) : p ∈ mergeParts parts := by
  induction parts with
  | nil => contradiction
  | cons part rest ih =>
    change p ∈ consPart part (mergeParts rest)
    unfold consPart
    split
    · next s t tail heq =>
      have hne : p ∈ rest := by
        rcases List.mem_cons.mp hp with rfl | hp
        · contradiction
        · exact hp
      have hmem := ih hne
      rw [heq] at hmem
      rcases List.mem_cons.mp hmem with rfl | hmem
      · contradiction
      · exact List.mem_cons_of_mem _ hmem
    · rcases List.mem_cons.mp hp with rfl | hp
      · exact List.mem_cons_self
      · exact List.mem_cons_of_mem _ (ih hp)

/-- An aggregate is no literal. -/
theorem literal?_of_isAggregate {e : Expr α} (h : e.isAggregate = true) : e.literal? = none := by
  cases e with
  | literal value => contradiction
  | column c | absent kind | node op kind shape operands guarded => rfl

/-- An aggregate brings a part to a concatenation that is one. -/
theorem exists_concatParts_of_isAggregate {e : Expr α} (h : e.isAggregate = true) :
    ∃ p ∈ e.concatParts, p.isAggregate = true := by
  unfold concatParts
  split
  · rcases isAggregate_node.mp h with hop | hmem
    · contradiction
    · exact hmem
  · exact ⟨e, List.mem_singleton_self e, h⟩

/-- A concatenation with an aggregate part is an aggregate, flattened and merged or not. -/
theorem isAggregate_concatAll {e : Expr α} {parts : List (Expr α)} (he : e ∈ parts)
    (ha : e.isAggregate = true) : (concatAll parts).isAggregate = true := by
  obtain ⟨p, hp, hap⟩ := exists_concatParts_of_isAggregate ha
  have hflat : p ∈ parts.flatMap concatParts := List.mem_flatMap.mpr ⟨e, he, hp⟩
  have hmerged := mem_mergeParts hflat (literal?_of_isAggregate hap)
  unfold concatAll
  generalize mergeParts (parts.flatMap concatParts) = merged at hmerged
  split
  · contradiction
  · obtain rfl := List.mem_singleton.mp hmerged
    exact hap
  · exact isAggregate_node.mpr (.inr ⟨p, hmerged, hap⟩)

end Expr

namespace Emulation

variable [Numeral α]

/-- Writing an aggregate as text leaves it one. -/
theorem isAggregate_toText {e : Expr α} (h : e.isAggregate = true) :
    e.toText.isAggregate = true := by
  unfold Expr.toText
  split
  · next x hx =>
    cases e with
    | literal value | column c | absent kind | node op kind shape operands guarded => contradiction
  · exact isAggregate_node.mpr (.inr ⟨e, List.mem_singleton_self e, h⟩)

/-- The text of a rectangle ranges over a group if its first bound does. -/
theorem isAggregate_rectangleText {minX : Expr α} (minY maxX maxY : Expr α)
    (h : minX.isAggregate = true) : (rectangleText minX minY maxX maxY).isAggregate = true := by
  have hcorner : (pairText minX minY).isAggregate = true :=
    isAggregate_concatAll List.mem_cons_self (isAggregate_toText h)
  have hmem : pairText minX minY ∈ joined [pairText minX minY, pairText maxX minY,
      pairText maxX maxY, pairText minX maxY, pairText minX minY] := List.mem_cons_self
  exact isAggregate_concatAll (List.mem_append_left _ (List.mem_cons_of_mem _ hmem)) hcorner

/-- No kind has a formula of its own for extents. -/
theorem emulateKind?_extent (kind : GeometryKind) (operands : List (Expr α)) :
    emulateKind? kind .extent operands = none := by
  unfold emulateKind?
  split
  · rfl
  · unfold emulateLine?
    split <;> rfl
  · unfold emulateSegment?
    split <;> rfl
  · rfl
  · rfl
  · rfl

/-- An extent has a portable form over one operand alone. -/
theorem emulate?_extent {kind : GeometryKind} {operands : List (Expr α)} {form : Emulated α}
    (hf : emulate? kind .extent operands = some form) :
    ∃ g, operands = [g] ∧ form = emulateExtent kind g := by
  have hbasic : emulate? kind .extent operands = basic? kind .extent operands := by
    cases kind <;> rfl
  have hother (h : basic? kind .extent operands = emulateKind? kind .extent operands) : False := by
    rw [hbasic, h, emulateKind?_extent] at hf
    contradiction
  cases operands with
  | nil => exact (hother rfl).elim
  | cons g rest =>
    cases rest with
    | nil => exact ⟨g, rfl, Option.some.inj (hf.symm.trans hbasic)⟩
    | cons b rest => exact (hother rfl).elim

/-- The portable form of a spatial node refers to no table that the node does not refer to, and it
ranges over a group only if the node does. The form of an extent always ranges over a group. -/
theorem emulation_stays_within {kind : GeometryKind} {op : SpatialOp} {operands : List (Expr α)}
    {form : Emulated α} (hf : emulate? kind op operands = some form) (valueKind : ValueKind)
    (shape : Shape) (guarded : Bool) :
    form.expr.tables ⊆ (node (.spatial kind op) valueKind shape operands guarded).tables ∧
      (form.expr.isAggregate = true →
        (node (.spatial kind op) valueKind shape operands guarded).isAggregate = true) ∧
      (op = .extent → form.expr.isAggregate = true) := by
  have hself := every_staysWithin_self (node (.spatial kind op) valueKind shape operands guarded)
  have hform := ((inherited_staysWithin _ _).every_form hself hf).staysWithin
  refine ⟨hform.1, hform.2, ?_⟩
  rintro rfl
  obtain ⟨g, rfl, rfl⟩ := emulate?_extent hf
  have hbound : (resolvedBound kind .minX g).minimum.isAggregate = true :=
    isAggregate_node.mpr (.inl rfl)
  exact isAggregate_rectangleText _ _ _ hbound

/-- The box around each road. -/
def roadBox : Expr Float :=
  Expr.boundingBox .line (.column ⟨⟨"roads", none⟩, "path", .geometry .line⟩)

/-- The extent of the boxes around all roads ranges over the table of roads. -/
theorem emulation_stays_within_roadBox :
    emulate? .polygon .extent [roadBox] = some (emulateExtent .polygon roadBox) ∧
      (emulateExtent .polygon roadBox).expr.tables ⊆ [⟨"roads", none⟩] ∧
      (emulateExtent .polygon roadBox).expr.isAggregate = true := by
  have hf : emulate? .polygon .extent [roadBox] = some (emulateExtent .polygon roadBox) := rfl
  obtain ⟨htables, -, haggregate⟩ := emulation_stays_within hf (.geometry .polygon) .unary false
  exact ⟨hf, htables, haggregate rfl⟩

end Emulation

end SpatialSql
