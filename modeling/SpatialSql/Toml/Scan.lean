/-!
# Scanning TOML

A scan reads a leading part of a text, or fails. The characters of a line are tabs
and everything that is no control character.
-/

namespace SpatialSql.Toml

/-- A reader of a leading part of a text. -/
abbrev Scan := StateT (List Char) Option

namespace Scan

/-- The first character, left in place. -/
def peek : Scan (Option Char) := do return (← get).head?

/-- One character of a class. -/
def one (accept : Char → Bool) : Scan Char := fun text =>
  match text with
  | c :: rest => if accept c then some (c, rest) else none
  | [] => none

/-- A fixed word. -/
def word (expected : String) : Scan Unit := fun text =>
  if expected.toList.isPrefixOf text then some ((), text.drop expected.length) else none

/-- Whether a fixed word follows; if so it is read. -/
def accepts (expected : String) : Scan Bool := (word expected *> pure true) <|> pure false

/-- All leading characters of a class. -/
def many (accept : Char → Bool) : Scan (List Char) := fun text => some (text.span accept)

/-- Blanks within a line. -/
def isSpace (c : Char) : Bool := c == ' ' || c == '\t'

/-- Skips blanks within a line. -/
def spaces : Scan Unit := (fun _ => ()) <$> many isSpace

/-- The characters a line may hold. -/
def isPlain (c : Char) : Bool := c == '\t' || 0x20 ≤ c.toNat && c.toNat != 0x7F

/-- An end of line. -/
def newline : Scan Unit := word "\n" <|> word "\r\n"

/-- A comment, if there is one. -/
def comment : Scan Unit := do
  if ← accepts "#" then
    let _ ← many isPlain

/-- The rest of a line: blanks, a comment, and the end of the line or of the text. -/
def lineEnd : Scan Unit := do
  spaces
  comment
  if (← get).isEmpty then return ()
  newline

/-- Drops blanks, ends of lines and comments from the front. -/
def dropFiller (inComment : Bool) : List Char → List Char
  | [] => []
  | '\r' :: '\n' :: rest => dropFiller false rest
  | c :: rest =>
    if inComment && isPlain c then dropFiller true rest
    else if isSpace c || c == '\n' then dropFiller false rest
    else if c == '#' then dropFiller true rest
    else c :: rest

/-- Skips blanks, ends of lines and comments. -/
def filler : Scan Unit := modify (dropFiller false)

end Scan

end SpatialSql.Toml
