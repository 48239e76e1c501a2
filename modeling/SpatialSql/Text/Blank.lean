/-!
# Blanks

The characters with the Unicode property White_Space, and trimming by it.
-/

namespace SpatialSql.Text

/-- The characters that count as blank, as inclusive ranges of code points. -/
def blankRanges : List (Nat × Nat) :=
  [(0x9, 0xD), (0x20, 0x20), (0x85, 0x85), (0xA0, 0xA0), (0x1680, 0x1680), (0x2000, 0x200A),
    (0x2028, 0x2029), (0x202F, 0x202F), (0x205F, 0x205F), (0x3000, 0x3000)]

/-- Whether a character is blank. -/
def isBlank (c : Char) : Bool :=
  blankRanges.any fun (low, high) => low ≤ c.toNat && c.toNat ≤ high

/-- Removes the blanks at both ends. -/
def trimmed (text : List Char) : List Char :=
  ((text.dropWhile isBlank).reverse.dropWhile isBlank).reverse

/-- Removes the blanks at both ends of a string. -/
def trim (text : String) : String := String.ofList (trimmed text.toList)

end SpatialSql.Text
