import SpatialSql.Toml.Scalar

/-!
# Reading TOML

A document is a list of lines, each a header or an entry, and is read in two steps:
the text into lines, and the lines into one table. A header applies to the entries
below it.
-/

namespace SpatialSql.Toml

/-- Builds a table from entries in order. -/
def collect (t : TomlTable Toml) : List ((List String × String) × Toml) → Option (TomlTable Toml)
  | [] => some t
  | ((path, key), value) :: rest => (insert path key value t).bind fun t => collect t rest

namespace Scan

mutual

/-- A value; every nested one spends depth and fuel. -/
def value (depth : Nat) : Nat → Scan Toml
  | 0 => failure
  | fuel + 1 => do
    match ← peek with
    | some '"' | some '\'' => return .string (← text)
    | some 't' => word "true"; return .boolean true
    | some 'f' => word "false"; return .boolean false
    | some '[' =>
      word "["
      if depth = 0 then failure
      filler
      return .array (← items (depth - 1) fuel)
    | some c =>
      if c = '\x7b' then
        word "\x7b"
        if depth = 0 then failure
        spaces
        let entries ←
          if ← accepts "\x7d" then pure [] else members (depth - 1) fuel
        match collect (.empty .inline) entries with
        | some t => return .table t
        | none => failure
      else number
    | none => failure

/-- The items of an array up to its closing bracket; a comma may follow the last one. -/
def items (depth : Nat) : Nat → Scan (List Toml)
  | 0 => failure
  | fuel + 1 => do
    if ← accepts "]" then return []
    let item ← value depth fuel
    filler
    if ← accepts "," then
      filler
      return item :: (← items depth fuel)
    word "]"
    return [item]

/-- The entries of a table in braces up to its closing brace. -/
def members (depth : Nat) : Nat → Scan (List ((List String × String) × Toml))
  | 0 => failure
  | fuel + 1 => do
    let key ← key
    word "="
    spaces
    let value ← value depth fuel
    spaces
    if ← accepts "," then return (key, value) :: (← members depth fuel)
    word "\x7d"
    return [(key, value)]

end

end Scan

/-- A line with content. -/
inductive Line where
  /-- A header of a table. -/
  | header (path : List String) (key : String)
  /-- A header of one more table of many. -/
  | element (path : List String) (key : String)
  | entry (path : List String) (key : String) (value : Toml)

namespace Scan

/-- One line with content, up to its end. -/
def contentLine : Scan Line := do
  let fuel := 2 * (← get).length + 2
  let line ←
    if ← accepts "[[" then do
      let (path, key) ← key
      word "]]"
      pure (.element path key)
    else if ← accepts "[" then do
      let (path, key) ← key
      word "]"
      pure (.header path key)
    else do
      let (path, key) ← key
      word "="
      spaces
      pure (.entry path key (← value (depthLimit - 1) fuel))
  lineEnd
  return line

/-- All lines with content; every line spends fuel. -/
def lines : Nat → Scan (List Line)
  | 0 => failure
  | fuel + 1 => do
    spaces
    match ← peek with
    | none => return []
    | some c =>
      if c = '#' ∨ c = '\n' ∨ c = '\r' then
        lineEnd
        lines fuel
      else
        let line ← contentLine
        return line :: (← lines fuel)

end Scan

/-- Adds a line to a document, given the header that applies; gives the header for the next line. -/
def addLine (current : List String) (t : TomlTable Toml) :
    Line → Option (List String × TomlTable Toml)
  | .header path key => (descend false (openTable key) path t).map (path ++ [key], ·)
  | .element path key => (descend false (openElement key) path t).map (path ++ [key], ·)
  | .entry path key value => (descend false (insert path key value) current t).map (current, ·)

/-- Builds a document from its lines. -/
def assemble (current : List String) (t : TomlTable Toml) : List Line → Option (TomlTable Toml)
  | [] => some t
  | line :: rest => (addLine current t line).bind fun (current, t) => assemble current t rest

/-- Reads a document; a byte order mark in front is skipped. -/
def parse? (document : String) : Option (TomlTable Toml) := do
  let text :=
    match document.toList with
    | c :: rest => if c.toNat = 0xFEFF then rest else c :: rest
    | [] => []
  let (lines, _) ← Scan.lines (text.length + 1) text
  assemble [] (.empty .header) lines

end SpatialSql.Toml
