import SpatialSql.Operator
import SpatialSql.Coordinate
import SpatialSql.Text.Search

/-!
# Rendering of SQL

A renderer holds the spelling of every scalar primitive in one SQL dialect, and the
spatial operators it can lower natively. All arguments are SQL that is rendered
already. The defaults are the spellings of standard SQL; a renderer that keeps them
all lowers no spatial operator.
-/

namespace SpatialSql

/-- The spelling of text primitives. -/
structure TextForms where
  /-- A literal text. -/
  literal : String → String := Text.enclosed '\'' '\''
  /-- A concatenation. -/
  concat : List String → String := fun parts => "(" ++ String.intercalate " || " parts ++ ")"
  /-- The position of the first text in the second, counted from one; zero when it does not occur. -/
  position : String → String → String := fun needle text =>
    "POSITION(" ++ needle ++ " IN " ++ text ++ ")"
  /-- The part of a text from a start, counted from one, with a length or up to the end. -/
  substring : String → String → Option String → String := fun text start length? =>
    match length? with
    | some length => "SUBSTRING(" ++ text ++ " FROM " ++ start ++ " FOR " ++ length ++ ")"
    | none => "SUBSTRING(" ++ text ++ " FROM " ++ start ++ ")"
  /-- The number of characters. -/
  length : String → String := fun text => "LENGTH(" ++ text ++ ")"
  /-- A text without blanks at its ends. -/
  trim : String → String := fun text => "TRIM(" ++ text ++ ")"
  /-- A text with every occurrence of the second replaced by the third. -/
  replace : String → String → String → String := fun text pattern replacement =>
    "REPLACE(" ++ text ++ ", " ++ pattern ++ ", " ++ replacement ++ ")"
  /-- The number a text denotes. -/
  toNumber : String → String := fun text => "CAST(" ++ text ++ " AS DOUBLE PRECISION)"

namespace TextForms

/-- The text before the first delimiter; empty when it does not occur. -/
def before (forms : TextForms) (text delimiter : String) : String :=
  let found := forms.position delimiter text
  "CASE WHEN " ++ found ++ " > 0 THEN " ++ forms.substring text "1" (some (found ++ " - 1")) ++
    " ELSE '' END"

/-- The text after the first delimiter; all of it when it does not occur. -/
def after (forms : TextForms) (text delimiter : String) : String :=
  let found := forms.position delimiter text
  "CASE WHEN " ++ found ++ " > 0 THEN " ++
    forms.substring text (found ++ " + " ++ forms.length delimiter) none ++ " ELSE " ++ text ++ " END"

/-- Drops words from the front of a trimmed text. -/
def skipWords (forms : TextForms) (space : String) : Nat → String → String
  | 0, body => body
  | n + 1, body => skipWords forms space n (forms.trim (forms.after body space))

/-- The number at a position between the parentheses of a well-known text: the punctuation becomes
spaces, then words are dropped from the front. -/
def ordinate (forms : TextForms) (text : String) (index : UInt32) : String :=
  let space := forms.literal " "
  let body := forms.after text (forms.literal "(")
  let spaced := ["(", ")", ","].foldl (fun body mark => forms.replace body (forms.literal mark) space) body
  let word := forms.skipWords space index.toNat (forms.trim spaced)
  forms.toNumber (forms.before (forms.concat [word, space]) space)

end TextForms

/-- A target of compilation over numbers of type `α`. -/
structure Renderer (α : Type) extends TextForms where
  /-- The name used in errors. -/
  name : String
  /-- A quoted identifier. -/
  identifier : String → String := Text.enclosed '"' '"'
  /-- A literal number. -/
  number : α → String
  /-- A literal truth value. -/
  boolean : Bool → String := fun value => if value then "TRUE" else "FALSE"
  /-- The text before the first delimiter; empty when it does not occur. -/
  substringBefore : String → String → String := toTextForms.before
  /-- The text after the first delimiter; all of it when it does not occur. -/
  substringAfter : String → String → String := toTextForms.after
  /-- The number at a position between the parentheses of a well-known text. -/
  ordinate : String → UInt32 → String := toTextForms.ordinate
  /-- The decimal text of a number. -/
  toText : String → String := fun number => "CAST(" ++ number ++ " AS TEXT)"
  /-- The square root. -/
  sqrt : String → String := fun number => "SQRT(" ++ number ++ ")"
  /-- The smaller of two numbers. -/
  least : String → String → String := fun a b => "LEAST(" ++ a ++ ", " ++ b ++ ")"
  /-- The larger of two numbers. -/
  greatest : String → String → String := fun a b => "GREATEST(" ++ a ++ ", " ++ b ++ ")"
  /-- A literal geometry, given as well-known text that is not rendered yet. -/
  geometryLiteral : GeometryKind → String → String := fun _ wkt => toTextForms.literal wkt
  /-- The geometry a rendered text describes. -/
  geometryFromText : GeometryKind → String → String := fun _ text => text
  /-- The index of the first member of a collection. -/
  indexBase : Int := 0
  /-- The native form of a spatial operator, or nothing when the dialect declines it. -/
  lower : GeometryKind → SpatialOp → List String → Option String := fun _ _ _ => none

namespace Renderer

variable {α : Type} [Numeral α]

/-- Standard SQL without spatial functions. -/
def ansi : Renderer α where
  name := "ansi"
  number := Numeral.text

end Renderer

/-- A function call. -/
def call (function : String) (args : List String) : String :=
  function ++ "(" ++ String.intercalate ", " args ++ ")"

end SpatialSql
