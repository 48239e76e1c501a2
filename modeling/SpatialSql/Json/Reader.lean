import SpatialSql.Json.Basic
import SpatialSql.Text.Hex

/-!
# Reading JSON

A strict reader: one value, no trailing commas or comments, no control characters
inside strings. Every step of the recursion spends one unit of fuel and at least
one character, so the length of the text is enough fuel.
-/

namespace SpatialSql.Json

/-- The blanks between tokens. -/
def isSpace (c : Char) : Bool := c == ' ' || c == '\n' || c == '\t' || c == '\r'

/-- Drops the blanks in front. -/
def skipSpace (text : List Char) : List Char := text.dropWhile isSpace

/-- A unit of a string: a character as it stands, or a numbered code unit. -/
inductive Piece where
  | char (c : Char)
  | unit (code : Nat)

/-- The character a short escape stands for. -/
def shortEscape? : Char → Option Char
  | '"' => some '"'
  | '\\' => some '\\'
  | '/' => some '/'
  | 'b' => some (Char.ofNat 0x8)
  | 'f' => some (Char.ofNat 0xC)
  | 'n' => some '\n'
  | 'r' => some '\r'
  | 't' => some '\t'
  | _ => none

/-- The pieces of a string up to its closing quote, and what follows it. -/
def pieces? : List Char → Option (List Piece × List Char)
  | [] => none
  | '"' :: rest => some ([], rest)
  | '\\' :: 'u' :: a :: b :: c :: d :: rest => do
    let code ← Text.hexValue? [a, b, c, d]
    let (pieces, rest) ← pieces? rest
    return (.unit code :: pieces, rest)
  | '\\' :: e :: rest => do
    let c ← shortEscape? e
    let (pieces, rest) ← pieces? rest
    return (.char c :: pieces, rest)
  | c :: rest =>
    if c = '\\' ∨ c.toNat < 0x20 then none
    else (pieces? rest).map fun (pieces, rest) => (.char c :: pieces, rest)

/-- The text of pieces: code units are characters or pairs of surrogates. -/
def assemble? : List Piece → Option (List Char)
  | [] => some []
  | .char c :: rest => (assemble? rest).map (c :: ·)
  | .unit code :: rest =>
    if 0xDC00 ≤ code ∧ code ≤ 0xDFFF then none
    else if 0xD800 ≤ code ∧ code ≤ 0xDBFF then
      match rest with
      | .unit low :: rest =>
        if 0xDC00 ≤ low ∧ low ≤ 0xDFFF then
          let c := Char.ofNat (0x10000 + (code - 0xD800) * 0x400 + (low - 0xDC00))
          (assemble? rest).map (c :: ·)
        else none
      | _ => none
    else (assemble? rest).map (Char.ofNat code :: ·)

/-- A string after its opening quote. -/
def string? (text : List Char) : Option (Option String × List Char) :=
  (pieces? text).map fun (pieces, rest) => ((assemble? pieces).map String.ofList, rest)

/-- A run of at least one digit. -/
def digits? (text : List Char) : Option (List Char × List Char) :=
  match Decimal.takeDigits text with
  | ([], _) => none
  | (digits, rest) => some (digits, rest)

/-- The whole part of a numeral: a zero, or digits that start with none. -/
def wholePart? (text : List Char) : Option (List Char × List Char) :=
  match digits? text with
  | some ('0' :: _ :: _, _) => none
  | result => result

/-- The fraction of a numeral, if it has one. -/
def fractionPart? (text : List Char) : Option (List Char × List Char) :=
  match text with
  | '.' :: rest => (digits? rest).map fun (digits, rest) => ('.' :: digits, rest)
  | rest => some ([], rest)

/-- The exponent of a numeral, if it has one. -/
def exponentPart? (text : List Char) : Option (List Char × List Char) :=
  match text with
  | mark :: rest =>
    if mark = 'e' ∨ mark = 'E' then
      match rest with
      | '+' :: rest => (digits? rest).map fun (digits, rest) => (mark :: '+' :: digits, rest)
      | '-' :: rest => (digits? rest).map fun (digits, rest) => (mark :: '-' :: digits, rest)
      | rest => (digits? rest).map fun (digits, rest) => (mark :: digits, rest)
    else some ([], text)
  | [] => some ([], [])

/-- A numeral. -/
def numeral? (text : List Char) : Option (String × List Char) := do
  let (sign, rest) :=
    match text with
    | '-' :: rest => (['-'], rest)
    | rest => ([], rest)
  let (whole, rest) ← wholePart? rest
  let (fraction, rest) ← fractionPart? rest
  let (exponent, rest) ← exponentPart? rest
  return (String.ofList (sign ++ whole ++ fraction ++ exponent), rest)

mutual

/-- A value, and what follows it. -/
def value? : Nat → List Char → Option (Json × List Char)
  | 0, _ => none
  | fuel + 1, text =>
    match text with
    | 'n' :: 'u' :: 'l' :: 'l' :: rest => some (.null, rest)
    | 't' :: 'r' :: 'u' :: 'e' :: rest => some (.bool true, rest)
    | 'f' :: 'a' :: 'l' :: 's' :: 'e' :: rest => some (.bool false, rest)
    | '"' :: rest => (string? rest).map fun (text?, rest) => (.string text?, rest)
    | '[' :: rest =>
      match skipSpace rest with
      | ']' :: rest => some (.array [], rest)
      | rest => (items? fuel rest).map fun (items, rest) => (.array items, rest)
    | c :: rest =>
      if c = Char.ofNat 0x7B then
        match skipSpace rest with
        | [] => none
        | d :: rest =>
          if d = Char.ofNat 0x7D then some (.object [], rest)
          else (members? fuel (d :: rest)).map fun (members, rest) => (.object members, rest)
      else (numeral? text).map fun (numeral, rest) => (.number numeral, rest)
    | [] => none

/-- The items of a nonempty array up to its closing bracket. -/
def items? : Nat → List Char → Option (List Json × List Char)
  | 0, _ => none
  | fuel + 1, text => do
    let (item, rest) ← value? fuel text
    match skipSpace rest with
    | ']' :: rest => return ([item], rest)
    | ',' :: rest =>
      let (items, rest) ← items? fuel (skipSpace rest)
      return (item :: items, rest)
    | _ => none

/-- The members of a nonempty object up to its closing brace. -/
def members? : Nat → List Char → Option (List (Option String × Json) × List Char)
  | 0, _ => none
  | fuel + 1, text => do
    let '"' :: rest := text | none
    let (key, rest) ← string? rest
    let ':' :: rest := skipSpace rest | none
    let (value, rest) ← value? fuel (skipSpace rest)
    match skipSpace rest with
    | ',' :: rest =>
      let (members, rest) ← members? fuel (skipSpace rest)
      return ((key, value) :: members, rest)
    | d :: rest => if d = Char.ofNat 0x7D then return ([(key, value)], rest) else none
    | [] => none

end

/-- Reads a document that consists of one value. -/
def parse? (document : String) : Option Json :=
  let text := document.toList
  match value? (2 * text.length + 2) (skipSpace text) with
  | some (value, rest) => if (skipSpace rest).isEmpty then some value else none
  | none => none

end SpatialSql.Json
