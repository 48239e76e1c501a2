import SpatialSql.Profile.Template
import SpatialSql.Dialect.Basic

/-!
# Dialect profiles

A profile is a built-in dialect with some spatial operators lowered by templates of
its own, or declined so that the portable emulation takes over.
-/

namespace SpatialSql

/-- A profile as it is written down. -/
structure Profile where
  /-- The name used in errors. -/
  name : String
  /-- The dialect that provides everything not overridden. -/
  base : Dialect
  /-- The index of the first member of a collection, where it differs from the base. -/
  indexBase? : Option Int
  /-- Keys of a kind and an operation, each with a template or the word `decline`. -/
  lowerings : List (String × String)
  deriving DecidableEq, Repr

/-- What a profile says about one operation. -/
inductive Lowering where
  | decline
  | template (pieces : Template)
  deriving DecidableEq, Repr

/-- The native form a lowering gives, if any. -/
def Lowering.apply (operands : List String) : Lowering → Option String
  | decline => none
  | template pieces => pieces.render operands

/-- A spatial operator at a geometry kind. -/
abbrev Operation := GeometryKind × SpatialOp

/-- The operation a key names: a kind and an operator around the first dot. -/
def Operation.ofKey? (key : String) : Option Operation := do
  let (kind, op) ← Text.cut? ['.'] key.toList
  let kind ← GeometryKind.ofName? (String.ofList (Text.trimmed kind))
  let op ← SpatialOp.ofName? (String.ofList (Text.trimmed op))
  return (kind, op)

/-- Reads the text of a lowering for an operator. -/
def Lowering.parse (op : SpatialOp) (text : String) : Except TemplateFault Lowering :=
  if Text.trim text = "decline" then .ok .decline
  else (Template.parse op.arity? text.toList).map .template

namespace Profile

/-- Reads one entry of a profile. -/
def entry (key text : String) : Except Error (Operation × Lowering) :=
  match Operation.ofKey? key with
  | none => .error (.unknownOperation key)
  | some operation =>
    match Lowering.parse operation.2 text with
    | .ok lowering => .ok (operation, lowering)
    | .error fault => .error (.invalidProfile ("'" ++ key ++ "': " ++ fault.reason))

/-- Reads all entries of a profile in order; the first fault wins. -/
def entries (profile : Profile) : Except Error (List (Operation × Lowering)) :=
  profile.lowerings.mapM fun (key, text) => entry key text

variable {α : Type} [Numeral α]

/-- A renderer with some operators lowered differently; of two entries for one operation the later
counts. -/
def overriding (base : Renderer α) (entries : List (Operation × Lowering)) : Renderer α :=
  { base with
    lower := fun kind op operands =>
      match entries.reverse.lookup (kind, op) with
      | some lowering => lowering.apply operands
      | none => base.lower kind op operands }

/-- The renderer of a profile. -/
def renderer (profile : Profile) : Except Error (Renderer α) := do
  let base : Renderer α := profile.base.renderer
  let entries ← profile.entries
  return { overriding base entries with
    name := profile.name
    indexBase := profile.indexBase?.getD base.indexBase }

end Profile

end SpatialSql
