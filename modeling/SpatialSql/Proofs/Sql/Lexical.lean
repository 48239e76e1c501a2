import SpatialSql.Dialect.Basic
import Mathlib.Data.List.Basic

/-!
# What a database reads outside quotes

A lexer for the quotes of SQL text, and two properties of what it leaves visible. A
text is *contained* when nothing it quotes can reach the code around it, and
*self-delimited* when every blank of it is enclosed. Both speak about any text; that it
was written by a renderer is not assumed.
-/

namespace SpatialSql.Sql

/-- The marks around a quoted identifier. Texts stand between single quotes in every dialect. -/
inductive Quoting where
  | doubleQuotes
  | backticks
  | brackets
  deriving DecidableEq, Repr

namespace Quoting

/-- The mark that opens an identifier. -/
def opening : Quoting → Char
  | doubleQuotes => '"'
  | backticks => Char.ofNat 0x60
  | brackets => '['

/-- The mark that closes an identifier. -/
def closing : Quoting → Char
  | doubleQuotes => '"'
  | backticks => Char.ofNat 0x60
  | brackets => ']'

/-- The mark that closes what a character opens; most characters open nothing. -/
def closing? (q : Quoting) (c : Char) : Option Char :=
  if c = '\'' then some '\'' else if c = q.opening then some q.closing else none

end Quoting

/-- Where a lexer stands. -/
inductive Mode where
  | outside
  /-- Behind an opening mark, up to the given closing one. -/
  | inside (close : Char)
  /-- Right behind a closing mark; the same mark again would make it part of the quoted text. -/
  | closed (close : Char)
  deriving DecidableEq, Repr

namespace Mode

/-- The mode behind a character that is read outside quotes. -/
def enter (q : Quoting) (c : Char) : Mode :=
  match q.closing? c with
  | some close => inside close
  | none => outside

/-- The mode behind a character. -/
def next (q : Quoting) : Mode → Char → Mode
  | outside, c => enter q c
  | inside close, c => if c = close then closed close else inside close
  | closed close, c => if c = close then inside close else enter q c

/-- What a character outside quotes shows: itself, or a single quote where quoted text begins. -/
def sign (q : Quoting) (c : Char) : Char := if (q.closing? c).isSome then '\'' else c

/-- What a character shows outside quotes, if anything. -/
def shown? (q : Quoting) : Mode → Char → Option Char
  | outside, c => some (sign q c)
  | inside _, _ => none
  | closed close, c => if c = close then none else some (sign q c)

/-- The mode behind a text. -/
def after (q : Quoting) (mode : Mode) (text : List Char) : Mode := text.foldl (next q) mode

/-- What a text shows outside quotes. -/
def visible (q : Quoting) : Mode → List Char → List Char
  | _, [] => []
  | mode, c :: rest => (mode.shown? q c).toList ++ visible q (mode.next q c) rest

end Mode

/-- The part of an SQL text outside quotes; each quoted part is left as one single quote. -/
def visible (q : Quoting) (sql : String) : List Char := Mode.outside.visible q sql.toList

/-- A character of names, numbers and keywords. -/
def isWordChar (c : Char) : Bool := c.isAlphanum || c == '_'

/-- The maximal words of a text. -/
def words (text : List Char) : List (List Char) := Text.tokens (fun c => !isWordChar c) text

/-- How deep a text ends in parentheses, square brackets and case distinctions. -/
def depth (text : List Char) : Int :=
  (text.count '(' + text.count '[' + (words text).count "CASE".toList : Nat) -
    (text.count ')' + text.count ']' + (words text).count "END".toList : Nat)

/-- What an SQL text quotes stays in its quotes, and the rest neither closes a parenthesis it has not
opened nor ends the statement nor starts a comment. -/
structure Contained (q : Quoting) (sql : String) : Prop where
  /-- The text does not end inside a quote. -/
  quotes_closed : ∀ close, Mode.outside.after q sql.toList ≠ .inside close
  /-- No parenthesis is closed before it is opened. -/
  parentheses_nested : ∀ pre, pre <+: visible q sql → pre.count ')' ≤ pre.count '('
  /-- Every parenthesis that is opened is closed. -/
  parentheses_balanced : (visible q sql).count '(' = (visible q sql).count ')'
  /-- The statement is not ended. -/
  no_semicolon : ';' ∉ visible q sql
  /-- No comment up to the end of a line is started. -/
  no_line_comment : ¬ ['-', '-'] <:+: visible q sql
  /-- No comment up to a closing mark is started. -/
  no_block_comment : ¬ ['/', '*'] <:+: visible q sql

/-- An SQL text closes all it opens, and every blank outside quotes is enclosed. -/
structure SelfDelimited (q : Quoting) (sql : String) : Prop where
  /-- All that is opened is closed. -/
  depth_eq_zero : depth (visible q sql) = 0
  /-- No blank stands at depth zero. -/
  depth_pos_of_blank : ∀ pre c post, visible q sql = pre ++ c :: post → Text.isBlank c = true →
    0 < depth pre

end Sql

/-- The marks around an identifier in a dialect. -/
def Dialect.quoting : Dialect → Sql.Quoting
  | postgres | sqlite => .doubleQuotes
  | mysql => .backticks
  | sqlserver => .brackets

end SpatialSql
