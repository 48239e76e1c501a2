import SpatialSql.Text.Hex
import SpatialSql.Toml.Scan

/-!
# TOML strings and keys

Strings stand in double quotes, where escapes are read, or in single quotes, where
they are not. Tripled quotes span lines: an end of line right after the opening is
dropped, and up to two more quotes may stand before the closing ones.
-/

namespace SpatialSql.Toml.Scan

/-- A character by its number in hexadecimal digits. -/
def numbered (digits : Nat) : Scan Char := fun text => do
  let code ← Text.hexValue? (text.take digits)
  if digits ≤ text.length ∧ code.isValidChar then some (Char.ofNat code, text.drop digits) else none

/-- The character an escape stands for, its backslash read already. -/
def escape : Scan Char := do
  match ← one fun _ => true with
  | 'b' => return Char.ofNat 0x8
  | 't' => return '\t'
  | 'n' => return '\n'
  | 'f' => return Char.ofNat 0xC
  | 'r' => return '\r'
  | '"' => return '"'
  | '\\' => return '\\'
  | 'u' => numbered 4
  | 'U' => numbered 8
  | _ => failure

/-- The rest of a string on one line, up to its closing quote; every step spends fuel. -/
def stringBody (quote : Char) (escapes : Bool) : Nat → Scan (List Char)
  | 0 => failure
  | fuel + 1 => do
    let c ← one isPlain
    if c = quote then return []
    let c ← if escapes && c == '\\' then escape else pure c
    return c :: (← stringBody quote escapes fuel)

/-- Drops blanks and ends of lines from the front. -/
def dropLines : List Char → List Char
  | [] => []
  | '\r' :: '\n' :: rest => dropLines rest
  | c :: rest => if isSpace c || c == '\n' then dropLines rest else c :: rest

/-- The blanks and ends of lines after a backslash that ends a line. -/
def continuation : Scan Unit := do
  spaces
  newline
  modify dropLines

/-- The rest of a string across lines, up to its closing quotes; every step spends fuel. -/
def blockBody (quote : Char) (escapes : Bool) : Nat → Scan (List Char)
  | 0 => failure
  | fuel + 1 => do
    let text ← get
    let run := text.takeWhile (· == quote)
    if 3 ≤ run.length then
      let extra := min (run.length - 3) 2
      set (text.drop (3 + extra))
      return List.replicate extra quote
    if ← (newline *> pure true) <|> pure false then
      return '\n' :: (← blockBody quote escapes fuel)
    let c ← one isPlain
    if escapes && c == '\\' then
      if ← (continuation *> pure true) <|> pure false then blockBody quote escapes fuel
      else
        let c ← escape
        return c :: (← blockBody quote escapes fuel)
    else return c :: (← blockBody quote escapes fuel)

/-- A string on one line after its opening quote. -/
def line (quote : Char) (escapes : Bool) : Scan String := do
  let chars ← stringBody quote escapes ((← get).length + 1)
  return String.ofList chars

/-- A string across lines after its opening quotes. -/
def block (quote : Char) (escapes : Bool) : Scan String := do
  let _ ← (newline *> pure true) <|> pure false
  let chars ← blockBody quote escapes ((← get).length + 1)
  return String.ofList chars

/-- A string of any form. -/
def text : Scan String := do
  if ← accepts "\"\"\"" then block '"' true
  else if ← accepts "\"" then line '"' true
  else if ← accepts "'''" then block '\'' false
  else do
    word "'"
    line '\'' false

/-- The characters of a key without quotes. -/
def isKeyChar (c : Char) : Bool := c.isAlphanum || c == '-' || c == '_'

/-- A part of a key. -/
def keyPart : Scan String := do
  if ← accepts "\"" then line '"' true
  else if ← accepts "'" then line '\'' false
  else do
    let c ← one isKeyChar
    return String.ofList (c :: (← many isKeyChar))

/-- The parts of a dotted key, each between blanks; every part spends fuel. -/
def keyParts : Nat → Scan (List String)
  | 0 => failure
  | fuel + 1 => do
    spaces
    let part ← keyPart
    spaces
    if ← accepts "." then return part :: (← keyParts fuel)
    return [part]

/-- How deep keys and values may nest. -/
def depthLimit : Nat := 80

/-- A key: the path to its table, and its last part. -/
def key : Scan (List String × String) := do
  let parts ← keyParts (depthLimit - 1)
  match parts.reverse with
  | last :: path => return (path.reverse, last)
  | [] => failure

end SpatialSql.Toml.Scan
