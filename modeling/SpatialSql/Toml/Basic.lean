/-!
# TOML values

A table remembers how it came about, because that decides whether a later line may
add to it: a table under a header is closed to dotted keys and to a second header,
and a table in braces is closed to everything.
-/

namespace SpatialSql

/-- How a table came about. -/
inductive TomlOrigin where
  /-- By a header of its own, or as the document itself. -/
  | header
  /-- On the way to a header below it. -/
  | path
  /-- By a dotted key. -/
  | dotted
  /-- In braces. -/
  | inline
  deriving DecidableEq, Repr

/-- A table with entries in order of appearance, over values of some type. -/
structure TomlTable (β : Type) where
  origin : TomlOrigin
  entries : List (String × β)

/-- A TOML value. -/
inductive Toml where
  | string (text : String)
  | integer (value : Int)
  | float (value : Float)
  | boolean (value : Bool)
  /-- A date, a time of day or both. -/
  | moment
  | array (items : List Toml)
  | table (table : TomlTable Toml)
  /-- The tables under repeated headers. -/
  | tables (elements : List (TomlTable Toml))

namespace TomlTable

variable {β : Type}

/-- A table without entries. -/
def empty (origin : TomlOrigin) : TomlTable β := ⟨origin, []⟩

/-- The value under a key. -/
def find? (t : TomlTable β) (key : String) : Option β := t.entries.lookup key

/-- Puts a value under a key, in place of the one that was there. -/
def set (t : TomlTable β) (key : String) (value : β) : TomlTable β :=
  { t with entries := t.entries.filter (fun entry => entry.1 != key) ++ [(key, value)] }

end TomlTable

namespace Toml

/-- A line that names a place below a table reaches it through the tables in between. Those that
are missing are created; dotted keys may only pass tables without a header of their own. -/
def descend (dotted : Bool) (act : TomlTable Toml → Option (TomlTable Toml)) :
    List String → TomlTable Toml → Option (TomlTable Toml)
  | [], t => act t
  | key :: path, t =>
    match t.find? key with
    | none =>
      (descend dotted act path (.empty (if dotted then .dotted else .path))).map fun child =>
        t.set key (.table child)
    | some (.table child) =>
      if child.origin = .inline ∨ (dotted ∧ child.origin = .header) then none
      else (descend dotted act path child).map fun child => t.set key (.table child)
    | some (.tables elements) =>
      match elements.reverse with
      | [] => none
      | last :: earlier =>
        (descend dotted act path last).map fun last =>
          t.set key (.tables (earlier.reverse ++ [last]))
    | some _ => none

/-- Adds an entry under a new key. -/
def insertNew (key : String) (value : Toml) (t : TomlTable Toml) : Option (TomlTable Toml) :=
  match t.find? key with
  | none => some (t.set key value)
  | some _ => none

/-- Adds an entry under a dotted key, given as the path to its table and the last part. -/
def insert (path : List String) (key : String) (value : Toml) (t : TomlTable Toml) :
    Option (TomlTable Toml) :=
  descend true
    (fun t => if path = [] ∨ t.origin = .dotted then insertNew key value t else none) path t

/-- Opens the table of a header; one that only lies on a path is taken over. -/
def openTable (key : String) (t : TomlTable Toml) : Option (TomlTable Toml) :=
  match t.find? key with
  | none => some (t.set key (.table (.empty .header)))
  | some (.table child) =>
    if child.origin = .path then some (t.set key (.table { child with origin := .header })) else none
  | some _ => none

/-- Opens the next table of a repeated header. -/
def openElement (key : String) (t : TomlTable Toml) : Option (TomlTable Toml) :=
  match t.find? key with
  | none => some (t.set key (.tables [.empty .header]))
  | some (.tables elements) => some (t.set key (.tables (elements ++ [.empty .header])))
  | some _ => none

end Toml

end SpatialSql
