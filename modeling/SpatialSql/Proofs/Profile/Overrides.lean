import SpatialSql.Profile.Basic
import SpatialSql.Proofs.Compile.Outcome

/-!
# A profile changes only what it overrides

The renderer of a profile spells everything as its base does and lowers as its base does
every operator that no entry names. What a renderer makes of an expression depends only on
the spatial nodes a compilation enters, so a profile whose entries name none of them compiles
the expression as its base. The formulas of declined operators count: they bring in operators
that the expression itself does not contain.
-/

namespace SpatialSql

open Emulation

/-- The error as a renderer of another name reports it. -/
def Error.renamed (name : String) : Error → Error
  | noEmulation kind op _ => noEmulation kind op name
  | error => error

section Results

variable {β γ : Type} (f : Error → Error)

/-- A result and the same result under another error are known alike. -/
theorem toOption_mapError (x : Except Error β) : (x.mapError f).toOption = x.toOption := by
  cases x <;> rfl

/-- A value is mapped alike whatever becomes of the error. -/
theorem map_mapError (x : Except Error β) (g : β → γ) :
    (x.mapError f).map g = (x.map g).mapError f := by
  cases x <;> rfl

/-- Changing the errors of all members changes the error of the list. -/
theorem mapM_mapError {α : Type} (compiled : Expr α → Except Error String) (es : List (Expr α)) :
    es.mapM (fun e => (compiled e).mapError f) = (es.mapM compiled).mapError f := by
  induction es with
  | nil => rfl
  | cons e rest ih =>
    rw [List.mapM_cons, List.mapM_cons, ih]
    cases compiled e with
    | error error => rfl
    | ok sql => cases rest.mapM compiled <;> rfl

end Results

variable {α : Type}

/-- Two renderers spell everything alike; they may differ in name, in the index they count from
and in what they lower. -/
def Renderer.SpellsLike (r base : Renderer α) : Prop :=
  ∃ name indexBase lower, r = { base with name, indexBase, lower }

section Alike

variable {r base : Renderer α}

/-- Columns are spelled alike. -/
theorem Renderer.SpellsLike.columnSql (h : r.SpellsLike base) (c : Column) :
    r.columnSql c = base.columnSql c := by
  obtain ⟨name, indexBase, lower, rfl⟩ := h
  rfl

/-- Scalar operators are spelled alike. -/
theorem Renderer.SpellsLike.scalarSql (h : r.SpellsLike base) (op : ScalarOp) :
    r.scalarSql op = base.scalarSql op := by
  obtain ⟨name, indexBase, lower, rfl⟩ := h
  cases op <;> rfl

/-- Geometries are read from text alike. -/
theorem Renderer.SpellsLike.geometryFromText (h : r.SpellsLike base) :
    r.geometryFromText = base.geometryFromText := by
  obtain ⟨name, indexBase, lower, rfl⟩ := h
  rfl

variable [Numeral α]

/-- Literals are spelled alike. -/
theorem Renderer.SpellsLike.literalSql (h : r.SpellsLike base) (value : Literal α) :
    r.literalSql value = base.literalSql value := by
  obtain ⟨name, indexBase, lower, rfl⟩ := h
  cases value <;> rfl

/-- Two renderers lower a node alike, whatever the SQL of its operands. -/
def Renderer.LowersLike (r base : Renderer α) : Expr α → Prop
  | .node (.spatial kind op) _ _ operands false =>
    ∀ args, r.lower kind op (r.rebased op operands args) =
      base.lower kind op (base.rebased op operands args)
  | _ => True

/-- One round of two renderers that spell alike and lower a node alike: if the compilers of what the
node enters differ in the name they report, so do the rounds. -/
theorem compileStep_renamed (hs : r.SpellsLike base) {e : Expr α} (hl : r.LowersLike base e)
    (compiled : Expr α → Except Error String) :
    compileStep r (fun e' => (compiled e').mapError (Error.renamed r.name)) e =
      (compileStep base compiled e).mapError (Error.renamed r.name) := by
  match e with
  | .literal value => rw [compileStep, compileStep, hs.literalSql]; rfl
  | .column c => rw [compileStep, compileStep, hs.columnSql]; rfl
  | .absent kind => rfl
  | .node op kind shape operands true => rw [compileStep, compileStep, map_mapError]
  | .node (.scalar op) kind shape operands false =>
    rw [compileStep, compileStep, mapM_mapError, map_mapError, hs.scalarSql]
  | .node (.spatial kind op) valueKind shape operands false =>
    have hnative (args : Except Error (List String)) :
        r.native? kind op operands (args.mapError (Error.renamed r.name)) =
          base.native? kind op operands args := by
      rw [Renderer.native?, Renderer.native?, toOption_mapError]
      exact congrArg _ (funext hl)
    rw [compileStep, compileStep, mapM_mapError, hnative]
    cases base.native? kind op operands (operands.mapM compiled) with
    | some sql => rfl
    | none =>
      cases emulate? kind op operands with
      | none => cases operands.mapM compiled <;> rfl
      | some form =>
        cases form with
        | value e' => rfl
        | wkt kind' text => exact (map_mapError ..).trans (by rw [hs.geometryFromText])

/-- Renderers that spell alike, and lower alike every node a compilation enters, compile alike up to
the name they report. The induction is on the weight, which falls from a node to what it enters. -/
theorem compile_renamed (hs : r.SpellsLike base) {e : Expr α}
    (hl : ∀ e', Relation.ReflTransGen Enters e e' → r.LowersLike base e') :
    compile r e = (compile base e).mapError (Error.renamed r.name) := by
  induction hw : e.weight using Nat.strongRecOn generalizing e with
  | ind n ih =>
    have hentered (e' : Expr α) (he : Enters e e') :
        compile r e' = (compile base e').mapError (Error.renamed r.name) :=
      ih e'.weight (hw ▸ he.weight_lt) (fun e'' hr => hl e'' (.head he hr)) rfl
    calc compile r e
        = compileStep r (compile r) e := compile_eq_compileStep r e
      _ = compileStep r (fun e' => (compile base e').mapError (Error.renamed r.name)) e :=
          compileStep_congr r hentered
      _ = (compileStep base (compile base) e).mapError (Error.renamed r.name) :=
          compileStep_renamed hs (hl e .refl) _
      _ = (compile base e).mapError (Error.renamed r.name) := by
          rw [← compile_eq_compileStep]

end Alike

/-- Only the operator that takes an index has it shifted. -/
theorem Renderer.rebased_of_ne [Numeral α] (r : Renderer α) {op : SpatialOp}
    (h : op ≠ .pointAtIndex) (operands : List (Expr α)) (args : List String) :
    r.rebased op operands args = args := by
  unfold Renderer.rebased
  split
  · contradiction
  · rfl

namespace Profile

/-- The profile has an entry for an operator at a kind. -/
def Overrides (profile : Profile) (kind : GeometryKind) (op : SpatialOp) : Prop :=
  ∃ entry ∈ profile.lowerings, Operation.ofKey? entry.1 = some (kind, op)

instance (profile : Profile) (kind : GeometryKind) (op : SpatialOp) :
    Decidable (profile.Overrides kind op) :=
  inferInstanceAs (Decidable (∃ entry ∈ profile.lowerings, Operation.ofKey? entry.1 = some (kind, op)))

/-- A valid entry is filed under the operation its key names. -/
theorem ofKey?_of_entry {key text : String} {operation : Operation} {lowering : Lowering}
    (h : entry key text = .ok (operation, lowering)) : Operation.ofKey? key = some operation := by
  unfold entry at h
  split at h
  · contradiction
  · next named hn =>
    split at h
    · rw [hn, (Prod.mk.inj (Except.ok.inj h)).1]
    · contradiction

/-- An operation that no key names is looked up in vain. -/
theorem lookup_eq_none {profile : Profile} {entries : List (Operation × Lowering)}
    (h : profile.entries = .ok entries) {kind : GeometryKind} {op : SpatialOp}
    (ho : ¬ profile.Overrides kind op) : entries.reverse.lookup (kind, op) = none := by
  rw [List.lookup_eq_none_iff]
  intro filed hf
  obtain ⟨written, hw, hread⟩ := exists_of_mem_mapM h (List.mem_reverse.mp hf)
  rw [bne_iff_ne]
  intro hk
  exact ho ⟨written, hw, (ofKey?_of_entry hread).trans (congrArg some hk.symm)⟩

variable [Numeral α]

/-- The parts of the renderer of a valid profile. -/
theorem exists_entries_of_renderer {profile : Profile} {r : Renderer α}
    (h : profile.renderer = .ok r) :
    ∃ entries, profile.entries = .ok entries ∧
      r = { overriding profile.base.renderer entries with
        name := profile.name
        indexBase := profile.indexBase?.getD (profile.base.renderer : Renderer α).indexBase } := by
  cases he : profile.entries with
  | error error =>
    rw [renderer, he] at h
    contradiction
  | ok entries =>
    rw [renderer, he] at h
    exact ⟨entries, rfl, (Except.ok.inj h).symm⟩

/-- A profile lowers as its base what it does not override, if it counts from the base's index or no
index is passed on. -/
theorem lowersLike_base {profile : Profile} {r : Renderer α} (h : profile.renderer = .ok r)
    {e : Expr α}
    (ho : ∀ kind op valueKind shape operands,
      e = .node (.spatial kind op) valueKind shape operands false → ¬ profile.Overrides kind op)
    (hi : profile.indexBase? = none ∨ ∀ kind valueKind shape operands,
      e ≠ .node (.spatial kind .pointAtIndex) valueKind shape operands false) :
    r.LowersLike profile.base.renderer e := by
  obtain ⟨entries, he, rfl⟩ := exists_entries_of_renderer h
  unfold Renderer.LowersLike
  split
  · next kind op valueKind shape operands =>
    intro args
    have hnone := lookup_eq_none he (ho kind op valueKind shape operands rfl)
    have hlower : (overriding (α := α) profile.base.renderer entries).lower kind op =
        (profile.base.renderer : Renderer α).lower kind op := by
      funext args
      simp only [overriding, hnone]
    refine (congrFun hlower _).trans (congrArg _ ?_)
    rcases hi with hi | hi
    · rw [hi]
      rfl
    · have hne : op ≠ .pointAtIndex := by
        rintro rfl
        exact hi kind valueKind shape operands rfl
      rw [Renderer.rebased_of_ne _ hne, Renderer.rebased_of_ne _ hne]
  · trivial

/-- Where the nodes that a compilation enters are not overridden, and no index is counted from a base
of the profile's own, a valid profile compiles an expression as its base dialect does: to the same SQL,
or to the same error with the name of the profile in it. -/
theorem compile_eq_base (profile : Profile) (r : Renderer α) (e : Expr α)
    (hr : profile.renderer = .ok r)
    (ho : ∀ kind op valueKind shape operands,
      Relation.ReflTransGen Enters e (.node (.spatial kind op) valueKind shape operands false) →
        ¬ profile.Overrides kind op)
    (hi : profile.indexBase? = none ∨ ∀ kind valueKind shape operands,
      ¬ Relation.ReflTransGen Enters e
        (.node (.spatial kind .pointAtIndex) valueKind shape operands false)) :
    compile r e = (Dialect.compile profile.base e).mapError (Error.renamed profile.name) := by
  have hs : r.SpellsLike profile.base.renderer ∧ r.name = profile.name := by
    obtain ⟨entries, -, rfl⟩ := exists_entries_of_renderer hr
    exact ⟨⟨_, _, _, rfl⟩, rfl⟩
  rw [← hs.2]
  refine compile_renamed hs.1 fun e' hreach => lowersLike_base hr ?_ ?_
  · rintro kind op valueKind shape operands rfl
    exact ho kind op valueKind shape operands hreach
  · refine hi.imp_right fun hi kind valueKind shape operands he => ?_
    exact hi kind valueKind shape operands (he ▸ hreach)

/-- SQLite with a distance function, and with indices that count from one. -/
def measuring : Profile where
  name := "measuring"
  base := .sqlite
  indexBase? := some 1
  lowerings := [("point2d.distance_to", "Distance(\x7b0\x7d, \x7b1\x7d)"),
    ("line2d.construct", "decline")]

/-- The entries of `measuring` can be read. -/
theorem entries_measuring : ∃ entries, measuring.entries = .ok entries := by
  have h : measuring.entries.isOk = true := by decide +kernel
  cases he : measuring.entries with
  | ok entries => exact ⟨entries, rfl⟩
  | error error =>
    rw [he] at h
    contradiction

/-- A stored point. -/
def place : Expr Float := .column ⟨⟨"town", none⟩, "place", .geometry .point⟩

/-- The first coordinate of a stored point. -/
def longitude : Expr Float := .spatial₁ .point .getX place

/-- The portable form of `longitude` reads the coordinate from the text of the point. -/
theorem reach_longitude {e : Expr Float} (h : Relation.ReflTransGen Enters longitude e) :
    e = longitude ∨ e = (Expr.spatial₁ .point .asText place).ordinate 0 ∨
      e = Expr.spatial₁ .point .asText place ∨ e = place := by
  induction h with
  | refl => exact Or.inl rfl
  | tail _ he ih =>
    rcases ih with rfl | rfl | rfl | rfl
    · cases he with
      | operand he => exact Or.inr (Or.inr (Or.inr (List.mem_singleton.mp he)))
      | formula hf =>
        cases hf
        exact Or.inr (Or.inl rfl)
    · cases he with
      | operand he => exact Or.inr (Or.inr (Or.inl (List.mem_singleton.mp he)))
    · cases he with
      | operand he => exact Or.inr (Or.inr (Or.inr (List.mem_singleton.mp he)))
      | formula hf =>
        cases hf
        exact Or.inr (Or.inr (Or.inr rfl))
    · cases he

/-- Of all spatial operators, `longitude` enters its own and the text of the point. -/
theorem enters_longitude {kind : GeometryKind} {op : SpatialOp} {valueKind : ValueKind}
    {shape : Shape} {operands : List (Expr Float)} {guarded : Bool}
    (h : Relation.ReflTransGen Enters longitude
      (.node (.spatial kind op) valueKind shape operands guarded)) :
    kind = .point ∧ (op = .getX ∨ op = .asText) := by
  rcases reach_longitude h with h | h | h | h <;> cases h
  · exact ⟨rfl, Or.inl rfl⟩
  · exact ⟨rfl, Or.inr rfl⟩

/-- The first coordinate of a stored point is no concern of `measuring`. -/
theorem compile_longitude :
    ∃ r : Renderer Float, measuring.renderer = .ok r ∧
      compile r longitude =
        (Dialect.compile .sqlite longitude).mapError (Error.renamed "measuring") := by
  obtain ⟨entries, he⟩ := entries_measuring
  obtain ⟨r, hr⟩ : ∃ r : Renderer Float, measuring.renderer = .ok r := by
    rw [renderer, he]
    exact ⟨_, rfl⟩
  refine ⟨r, hr, compile_eq_base measuring r longitude hr ?_ (Or.inr ?_)⟩
  · intro kind op valueKind shape operands h
    obtain ⟨rfl, rfl | rfl⟩ := enters_longitude h <;> decide +kernel
  · intro kind valueKind shape operands h
    obtain ⟨-, h | h⟩ := enters_longitude h <;> contradiction

end Profile

end SpatialSql
