import SpatialSql.Proofs.Compile.Termination
import Mathlib.Data.List.Forall2

/-!
# When a compilation succeeds, and where it fails

A spatial node compiles if the renderer lowers it over compiled operands or if its
portable form compiles; so an operand that fails need not make the node fail. Read
along the expressions a compilation enters, this has two consequences for all trees and
renderers. A renderer that lowers more compiles more, and every error comes from a node
that is entered, whose operands compile, and which is neither lowered nor has a portable
form.
-/

namespace SpatialSql

open Emulation

/-- A result that was mapped has a result behind it. -/
theorem exists_of_map_eq_ok {β γ : Type} {f : β → γ} {x : Except Error β} {c : γ}
    (h : x.map f = .ok c) : ∃ b, x = .ok b ∧ f b = c := by
  cases x with
  | error error => contradiction
  | ok b => exact ⟨b, rfl, Except.ok.inj h⟩

/-- Mapping a result leaves an error as it is. -/
theorem eq_error_of_map_eq_error {β γ : Type} {f : β → γ} {x : Except Error β} {error : Error}
    (h : x.map f = .error error) : x = .error error := by
  cases x with
  | error error' => exact congrArg Except.error (Except.error.inj h)
  | ok b => contradiction

variable {α : Type}

section Lists

variable {β γ : Type} {f : β → Except Error γ} {es : List β} {args : List γ}

/-- A list compiles exactly if its members compile, one text for each of them. -/
theorem mapM_eq_ok_iff :
    es.mapM f = .ok args ↔ List.Forall₂ (fun e arg => f e = .ok arg) es args := by
  induction es generalizing args with
  | nil =>
    rw [List.mapM_nil, List.forall₂_nil_left_iff]
    exact ⟨fun h => (Except.ok.inj h).symm, fun h => congrArg Except.ok h.symm⟩
  | cons e rest ih =>
    rw [List.mapM_cons, List.forall₂_cons_left_iff]
    constructor
    · intro h
      cases he : f e with
      | error error =>
        rw [he] at h
        contradiction
      | ok first =>
        cases hr : rest.mapM f with
        | error error =>
          rw [he, hr] at h
          contradiction
        | ok others =>
          rw [he, hr] at h
          exact ⟨first, others, rfl, ih.mp hr, (Except.ok.inj h).symm⟩
    · rintro ⟨first, others, he, hr, rfl⟩
      rw [he, ih.mpr hr]
      rfl

/-- Every compiled member of a list comes from a member. -/
theorem exists_of_mem_mapM (h : es.mapM f = .ok args) {arg : γ} (ha : arg ∈ args) :
    ∃ e ∈ es, f e = .ok arg := by
  induction mapM_eq_ok_iff.mp h with
  | nil => contradiction
  | @cons e first rest others he hr ih =>
    rcases List.mem_cons.mp ha with rfl | ha
    · exact ⟨e, List.mem_cons_self, he⟩
    · obtain ⟨e', he', hf⟩ := ih (mapM_eq_ok_iff.mpr hr) ha
      exact ⟨e', List.mem_cons_of_mem _ he', hf⟩

/-- Every member of a list that compiles has compiled. -/
theorem exists_of_mapM_eq_ok (h : es.mapM f = .ok args) {e : β} (he : e ∈ es) :
    ∃ arg, f e = .ok arg := by
  induction mapM_eq_ok_iff.mp h with
  | nil => contradiction
  | @cons first arg rest others hf hr ih =>
    rcases List.mem_cons.mp he with rfl | he
    · exact ⟨arg, hf⟩
    · exact ih (mapM_eq_ok_iff.mpr hr) he

/-- The error of a list is the error of one of its members. -/
theorem exists_of_mapM_eq_error {error : Error} (h : es.mapM f = .error error) :
    ∃ e ∈ es, f e = .error error := by
  induction es with
  | nil => contradiction
  | cons e rest ih =>
    rw [List.mapM_cons] at h
    cases he : f e with
    | error first =>
      rw [he] at h
      cases h
      exact ⟨e, List.mem_cons_self, he⟩
    | ok first =>
      cases hr : rest.mapM f with
      | error other =>
        rw [he, hr] at h
        cases h
        obtain ⟨e', he', hf⟩ := ih hr
        exact ⟨e', List.mem_cons_of_mem _ he', hf⟩
      | ok others =>
        rw [he, hr] at h
        contradiction

/-- A list compiles if all its members do. -/
theorem exists_mapM_eq_ok (h : ∀ e ∈ es, ∃ sql, f e = .ok sql) : ∃ args, es.mapM f = .ok args := by
  cases hm : es.mapM f with
  | ok args => exact ⟨args, rfl⟩
  | error error =>
    obtain ⟨e, he, hf⟩ := exists_of_mapM_eq_error hm
    obtain ⟨sql, hs⟩ := h e he
    rw [hs] at hf
    contradiction

end Lists

variable [Numeral α] {r : Renderer α}

section Spatial

variable {kind : GeometryKind} {op : SpatialOp} {valueKind : ValueKind} {shape : Shape}
  {operands : List (Expr α)}

/-- The three ways a spatial node that is not guarded compiles. -/
theorem compile_spatial_cases {sql : String}
    (h : compile r (.node (.spatial kind op) valueKind shape operands false) = .ok sql) :
    r.native? kind op operands (operands.mapM (compile r)) = some sql ∨
      (r.native? kind op operands (operands.mapM (compile r)) = none ∧
        ((∃ e, emulate? kind op operands = some (.value e) ∧ compile r e = .ok sql) ∨
          ∃ kind' text textSql, emulate? kind op operands = some (.wkt kind' text) ∧
            compile r text = .ok textSql ∧ r.geometryFromText kind' textSql = sql)) := by
  rw [compile_eq_compileStep, compileStep] at h
  cases hl : r.native? kind op operands (operands.mapM (compile r)) with
  | some lowered =>
    simp only [hl] at h
    exact Or.inl (congrArg some (Except.ok.inj h))
  | none =>
    simp only [hl] at h
    refine Or.inr ⟨rfl, ?_⟩
    split at h
    · next e hf => exact Or.inl ⟨e, hf, h⟩
    · next kind' text hf =>
      obtain ⟨textSql, ht, hs⟩ := exists_of_map_eq_ok h
      exact Or.inr ⟨kind', text, textSql, hf, ht, hs⟩
    · split at h <;> contradiction

/-- A native form is the lowering of compiled operands. -/
theorem exists_of_native?_eq_some {sql : String}
    (h : r.native? kind op operands (operands.mapM (compile r)) = some sql) :
    ∃ args, operands.mapM (compile r) = .ok args ∧
      r.lower kind op (r.rebased op operands args) = some sql := by
  obtain ⟨args, ha, hlower⟩ := Option.bind_eq_some_iff.mp h
  cases hm : operands.mapM (compile r) with
  | error error =>
    rw [hm] at ha
    contradiction
  | ok compiled =>
    rw [hm] at ha
    rw [Option.some.inj ha]
    exact ⟨args, rfl, hlower⟩

/-- The three ways a spatial node that is not guarded fails: with the error of its portable form, or
without such a form, with the error of an operand or else its own. -/
theorem compile_spatial_error_cases {error : Error}
    (h : compile r (.node (.spatial kind op) valueKind shape operands false) = .error error) :
    (∃ form, emulate? kind op operands = some form ∧ compile r form.expr = .error error) ∨
      (emulate? kind op operands = none ∧
        (operands.mapM (compile r) = .error error ∨
          ∃ args, operands.mapM (compile r) = .ok args ∧
            r.lower kind op (r.rebased op operands args) = none ∧
            error = .noEmulation kind op r.name)) := by
  rw [compile_eq_compileStep, compileStep] at h
  cases hl : r.native? kind op operands (operands.mapM (compile r)) with
  | some lowered =>
    simp only [hl] at h
    contradiction
  | none =>
    simp only [hl] at h
    split at h
    · next e hf => exact Or.inl ⟨.value e, hf, h⟩
    · next kind' text hf => exact Or.inl ⟨.wkt kind' text, hf, eq_error_of_map_eq_error h⟩
    · next hf =>
      refine Or.inr ⟨hf, ?_⟩
      split at h
      · next error' ha => exact Or.inl (by rw [ha, Except.error.inj h])
      · next args ha =>
        rw [ha] at hl
        exact Or.inr ⟨args, ha, hl, (Except.error.inj h).symm⟩

/-- A node whose operands compile and are lowered compiles. -/
theorem exists_compile_of_lower {args : List String} (ha : operands.mapM (compile r) = .ok args)
    (hl : (r.lower kind op (r.rebased op operands args)).isSome) :
    ∃ sql, compile r (.node (.spatial kind op) valueKind shape operands false) = .ok sql := by
  obtain ⟨sql, hs⟩ := Option.isSome_iff_exists.mp hl
  refine ⟨sql, ?_⟩
  have hn : r.native? kind op operands (operands.mapM (compile r)) = some sql := by
    rw [ha]
    exact hs
  rw [compile_eq_compileStep, compileStep]
  simp only [hn]

/-- A node whose portable form compiles compiles, lowered or not. -/
theorem exists_compile_of_form {form : Emulated α} (hf : emulate? kind op operands = some form)
    (hc : ∃ sql, compile r form.expr = .ok sql) :
    ∃ sql, compile r (.node (.spatial kind op) valueKind shape operands false) = .ok sql := by
  obtain ⟨sql, hs⟩ := hc
  cases h : compile r (.node (.spatial kind op) valueKind shape operands false) with
  | ok sql' => exact ⟨sql', rfl⟩
  | error error =>
    rcases compile_spatial_error_cases h with ⟨form', hf', he⟩ | ⟨hf', -⟩
    · rw [hf] at hf'
      rw [← Option.some.inj hf', hs] at he
      contradiction
    · rw [hf] at hf'
      contradiction

end Spatial

/-- Counting an index from another base keeps the number of arguments. -/
theorem Renderer.length_rebased (r : Renderer α) (op : SpatialOp) (operands : List (Expr α))
    (args : List String) : (r.rebased op operands args).length = args.length := by
  unfold Renderer.rebased
  split <;> rfl

/-- The first renderer lowers every operator that the second one lowers, and does so for all arguments
of the same number. -/
def Renderer.Covers (g h : Renderer α) : Prop :=
  ∀ (kind : GeometryKind) (op : SpatialOp) (args args' : List String),
    args.length = args'.length → (h.lower kind op args).isSome → (g.lower kind op args').isSome

/-- What a renderer compiles, a renderer that lowers more compiles too. The induction is along the
expressions a compilation enters, since a node may be lowered by one renderer and replaced by its portable
form for the other. -/
theorem Renderer.Covers.exists_compile {g h : Renderer α} (hc : g.Covers h) {e : Expr α}
    {sql : String} (hs : compile h e = .ok sql) : ∃ sql', compile g e = .ok sql' := by
  induction hw : e.weight using Nat.strongRecOn generalizing e sql with
  | ind n ih =>
    have hentered {e' : Expr α} {sql' : String} (he : Enters e e') (hs' : compile h e' = .ok sql') :
        ∃ sql'', compile g e' = .ok sql'' :=
      ih e'.weight (hw ▸ he.weight_lt) hs' rfl
    cases e with
    | literal value => exact ⟨_, by rw [compile]⟩
    | column c => exact ⟨_, by rw [compile]⟩
    | absent kind => exact ⟨_, by rw [compile]⟩
    | node op kind shape operands guarded =>
      cases guarded with
      | true =>
        rw [compile] at hs
        obtain ⟨subject, hsubject, -⟩ := exists_of_map_eq_ok hs
        obtain ⟨subject', hg⟩ := hentered (.subject op kind shape operands) hsubject
        exact ⟨_, by rw [compile, hg]; rfl⟩
      | false =>
        have hoperands {args : List String} (ha : operands.mapM (compile h) = .ok args) :
            ∃ args', operands.mapM (compile g) = .ok args' := by
          refine exists_mapM_eq_ok fun e' he' => ?_
          obtain ⟨sql', hs'⟩ := exists_of_mapM_eq_ok ha he'
          exact hentered (.operand he') hs'
        cases op with
        | scalar op =>
          rw [compile, compileAll_eq_mapM] at hs
          obtain ⟨args, ha, -⟩ := exists_of_map_eq_ok hs
          obtain ⟨args', hg⟩ := hoperands ha
          exact ⟨_, by rw [compile, compileAll_eq_mapM, hg]; rfl⟩
        | spatial geometry op =>
          rcases compile_spatial_cases hs with hl | ⟨-, ⟨e', hf, he⟩ | ⟨kind', text, textSql, hf, ht, -⟩⟩
          · obtain ⟨args, ha, hlower⟩ := exists_of_native?_eq_some hl
            obtain ⟨args', hg⟩ := hoperands ha
            have hlength : args.length = args'.length :=
              (mapM_eq_ok_iff.mp ha).length_eq.symm.trans (mapM_eq_ok_iff.mp hg).length_eq
            refine exists_compile_of_lower hg (hc geometry op (h.rebased op operands args) _ ?_ ?_)
            · rw [length_rebased, length_rebased, hlength]
            · rw [hlower]
              rfl
          · exact exists_compile_of_form hf (hentered (.formula hf) he)
          · exact exists_compile_of_form hf (hentered (.formula hf) ht)

/-- Native lowerings only add to what compiles: a renderer that lowers more compiles every tree the
other one compiles, and every renderer compiles what SQLite compiles without lowering anything. -/
theorem compile_monotone :
    (∀ (g h : Renderer α), g.Covers h →
      ∀ (e : Expr α) (sql : String), compile h e = .ok sql → ∃ sql', compile g e = .ok sql') ∧
    ∀ (g : Renderer α) (e : Expr α) (sql : String),
      Dialect.compile .sqlite e = .ok sql → ∃ sql', compile g e = .ok sql' := by
  constructor
  · intro g h hc e sql hs
    exact hc.exists_compile hs
  · intro g e sql hs
    have hc : g.Covers (Dialect.renderer .sqlite) := by
      intro kind op args args' _ hl
      contradiction
    exact hc.exists_compile hs

/-- The renderer declines a node over compiled operands, and no portable form fits them. -/
inductive Stuck (r : Renderer α) : Expr α → Error → Prop
  | intro {kind : GeometryKind} {op : SpatialOp} {valueKind : ValueKind} {shape : Shape}
      {operands : List (Expr α)} {args : List String} (ha : operands.mapM (compile r) = .ok args)
      (hl : r.lower kind op (r.rebased op operands args) = none)
      (hf : emulate? kind op operands = none) :
      Stuck r (.node (.spatial kind op) valueKind shape operands false) (.noEmulation kind op r.name)

/-- Every error comes from a stuck node that the compilation enters. -/
theorem exists_stuck_of_error {e : Expr α} {error : Error} (h : compile r e = .error error) :
    ∃ e', Relation.ReflTransGen Enters e e' ∧ Stuck r e' error := by
  induction hw : e.weight using Nat.strongRecOn generalizing e with
  | ind n ih =>
    have hentered {e' : Expr α} (he : Enters e e') (h' : compile r e' = .error error) :
        ∃ e'', Relation.ReflTransGen Enters e e'' ∧ Stuck r e'' error := by
      obtain ⟨e'', hr, hs⟩ := ih e'.weight (hw ▸ he.weight_lt) h' rfl
      exact ⟨e'', .head he hr, hs⟩
    cases e with
    | literal value =>
      rw [compile] at h
      contradiction
    | column c =>
      rw [compile] at h
      contradiction
    | absent kind =>
      rw [compile] at h
      contradiction
    | node op kind shape operands guarded =>
      cases guarded with
      | true =>
        rw [compile] at h
        exact hentered (.subject op kind shape operands) (eq_error_of_map_eq_error h)
      | false =>
        have hoperands (ha : operands.mapM (compile r) = .error error) :
            ∃ e'', Relation.ReflTransGen Enters (.node op kind shape operands false) e'' ∧
              Stuck r e'' error := by
          obtain ⟨e', he', hc⟩ := exists_of_mapM_eq_error ha
          exact hentered (.operand he') hc
        cases op with
        | scalar op =>
          rw [compile, compileAll_eq_mapM] at h
          exact hoperands (eq_error_of_map_eq_error h)
        | spatial geometry op =>
          rcases compile_spatial_error_cases h with ⟨form, hf, hc⟩ | ⟨hf, ha | ⟨args, ha, hl, rfl⟩⟩
          · exact hentered (.formula hf) hc
          · exact hoperands ha
          · exact ⟨_, .refl, .intro ha hl hf⟩

end SpatialSql
