import SpatialSql.Json.Record
import SpatialSql.Profile.Basic
import SpatialSql.Toml.Reader

/-!
# Profiles in files

A profile is written in TOML or in JSON, with the same keys; unknown keys are
ignored. The name of a file tells which of the two it holds.
-/

namespace SpatialSql

/-- Reads a dialect from its exact name or alias. -/
def Dialect.ofJson? (json : Json) : Option Dialect := json.unitVariant?.bind ofName?

namespace Profile

/-- An integer of 64 bits with its sign. -/
def word? (value : Int) : Option Int :=
  if -Int.pow 2 63 ≤ value ∧ value < Int.pow 2 63 then some value else none

/-- Adds an entry; one that is there under the same key is replaced. -/
def put (entries : List (String × String)) (key text : String) : List (String × String) :=
  entries.filter (fun entry => entry.1 != key) ++ [(key, text)]

/-- Reads texts under keys from JSON; the last of repeated keys counts. -/
def lowerings? : Json → Option (List (String × String))
  | .object members =>
    members.foldlM (fun entries (key, value) => do return put entries (← key) (← value.text?)) []
  | _ => none

/-- Reads a profile from a JSON value. -/
def ofJson? (json : Json) : Option Profile := do
  let [some name, some base, indexBase, lowerings] ←
    json.fields? ["name", "base", "index_base", "lowerings"] | none
  return {
    name := ← name.text?
    base := ← Dialect.ofJson? base
    indexBase? := ← (indexBase.getD .null).nullable? fun value => value.int?.bind word?
    lowerings := ← lowerings? (lowerings.getD (.object [])) }

/-- Writes a profile as a JSON value. -/
def toJson (profile : Profile) : Json :=
  .record [("name", .text profile.name), ("base", .text profile.base.name),
    ("index_base", .optional .int profile.indexBase?),
    ("lowerings", .record (profile.lowerings.map fun (key, text) => (key, .text text)))]

/-- Reads a dialect from TOML: its name, or a table with that one key and nothing under it. -/
def dialectOfToml? : Toml → Option Dialect
  | .string name => Dialect.ofName? name
  | .table ⟨_, [(name, .array [])]⟩ => Dialect.ofName? name
  | .table ⟨_, [(name, .table ⟨_, []⟩)]⟩ => Dialect.ofName? name
  | _ => none

/-- Reads a text from TOML. -/
def textOfToml? : Toml → Option String
  | .string text => some text
  | _ => none

/-- Reads an integer from TOML. -/
def intOfToml? : Toml → Option Int
  | .integer value => some value
  | _ => none

/-- Reads texts under keys from TOML. -/
def loweringsOfToml? : Toml → Option (List (String × String))
  | .table t => t.entries.mapM fun (key, value) => (textOfToml? value).map (key, ·)
  | _ => none

/-- Reads a profile from a TOML document. -/
def ofToml? (t : TomlTable Toml) : Option Profile := do
  return {
    name := ← (t.find? "name").bind textOfToml?
    base := ← (t.find? "base").bind dialectOfToml?
    indexBase? := ← (t.find? "index_base").mapM intOfToml?
    lowerings := (← (t.find? "lowerings").mapM loweringsOfToml?).getD [] }

/-- Reads a profile from the text of a JSON document. -/
def parseJson (document : String) : Except Error Profile :=
  match (Json.parse? document).bind ofJson? with
  | some profile => .ok profile
  | none => .error .malformedJson

/-- Reads a profile from the text of a TOML document. -/
def parseToml (document : String) : Except Error Profile :=
  match (Toml.parse? document).bind ofToml? with
  | some profile => .ok profile
  | none => .error .malformedToml

/-- The part of a file name after its last dot; a dot in front opens no extension. -/
def extension? (file : String) : Option (List Char) :=
  match Text.cut? ['.'] file.toList.reverse with
  | some (extension, _ :: _) => some extension.reverse
  | _ => none

/-- Reads a profile from a file, given its name and what it holds, if it exists. A file with the
extension `json` in any case is JSON, every other one TOML. -/
def load (file : String) (content? : Option ByteArray) : Except Error Profile :=
  match content?.bind String.fromUTF8? with
  | none => .error .unreadableFile
  | some document =>
    if (extension? file).map (·.map Char.toLower) = some "json".toList then parseJson document
    else parseToml document

end Profile

end SpatialSql
