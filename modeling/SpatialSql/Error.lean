import SpatialSql.Operator

/-!
# Errors

The causes for which building, compiling or loading can fail, and their wording.
Faults in documents and files carry no wording of their own.
-/

namespace SpatialSql

/-- Why an operation failed. -/
inductive Error where
  /-- The operation makes sense for the kind, but expressions do not offer it. -/
  | notImplemented (kind : GeometryKind) (op : SpatialOp)
  /-- The dialect declined and no portable formula fits the operands. -/
  | noEmulation (kind : GeometryKind) (op : SpatialOp) (dialect : String)
  | unknownDialect (name : String)
  /-- A key that names no kind and operation. -/
  | unknownOperation (key : String)
  /-- A profile entry that is no valid template. -/
  | invalidProfile (reason : String)
  | malformedToml
  | malformedJson
  | unreadableFile
  deriving DecidableEq, Repr

/-- The wording of an error, where it has one. -/
def Error.message? : Error → Option String
  | notImplemented kind op => some (op.name ++ " is not implemented for " ++ kind.name ++ " expressions")
  | noEmulation kind op dialect =>
    some ("dialect '" ++ dialect ++ "' has no lowering for " ++ kind.name ++ "." ++ op.name ++
      " and the operands cannot be emulated")
  | unknownDialect name => some ("unknown dialect '" ++ name ++ "'")
  | unknownOperation key => some ("unknown spatial operation '" ++ key ++ "'")
  | invalidProfile reason => some ("invalid dialect profile: " ++ reason)
  | malformedToml | malformedJson | unreadableFile => none

end SpatialSql
