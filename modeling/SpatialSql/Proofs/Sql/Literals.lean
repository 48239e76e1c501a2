import SpatialSql.Compile
import Mathlib.Data.List.Induction

/-!
# Text literals as MySQL reads them

MySQL gives the backslash a meaning inside quotes unless it is told not to: it takes the next
character out of its usual role, a closing quote included. Literals are written with doubled
quotes and no other change. So a text comes back from its literal exactly if each of its
backslashes stands before a wildcard of patterns, the one case in which MySQL leaves both
characters as they are.
-/

namespace SpatialSql.Sql

/-- A character that stands for others in a pattern. -/
def isWildcard (c : Char) : Bool := c == '%' || c == '_'

/-- The control character that a character behind a backslash stands for. -/
def control? : Char → Option Char
  | '0' => some (Char.ofNat 0x0)
  | 'b' => some (Char.ofNat 0x8)
  | 'n' => some '\n'
  | 'r' => some '\r'
  | 't' => some '\t'
  | 'Z' => some (Char.ofNat 0x1A)
  | _ => none

/-- What a backslash and the character behind it stand for. Wildcards keep the backslash, so that a
pattern can tell them from bare ones. -/
def escapeValue (c : Char) : List Char :=
  if isWildcard c then ['\\', c] else [(control? c).getD c]

/-- The value of a literal behind its opening quote, and what follows the closing one; nothing when it
is not closed. -/
def literalBody? : List Char → Option (List Char × List Char)
  | [] => none
  | '\\' :: c :: rest => (literalBody? rest).map fun (value, rest) => (escapeValue c ++ value, rest)
  | '\'' :: '\'' :: rest => (literalBody? rest).map fun (value, rest) => ('\'' :: value, rest)
  | '\'' :: rest => some ([], rest)
  | c :: rest =>
    if c = '\\' then none else (literalBody? rest).map fun (value, rest) => (c :: value, rest)

/-- The value of the literal at the front of a text, and what follows it. -/
def readLiteral? : List Char → Option (List Char × List Char)
  | '\'' :: rest => literalBody? rest
  | _ => none

section Steps

variable {c : Char} {rest : List Char}

/-- A backslash and the character behind it are read as the value of the escape. -/
theorem literalBody?_escape (c : Char) (rest : List Char) :
    literalBody? ('\\' :: c :: rest) =
      (literalBody? rest).map fun (value, rest) => (escapeValue c ++ value, rest) := rfl

/-- A doubled quote is read as one. -/
theorem literalBody?_quotes (rest : List Char) :
    literalBody? ('\'' :: '\'' :: rest) =
      (literalBody? rest).map fun (value, rest) => ('\'' :: value, rest) := rfl

/-- A single quote ends the literal. -/
theorem literalBody?_quote (h : rest.head? ≠ some '\'') :
    literalBody? ('\'' :: rest) = some ([], rest) := by
  cases rest with
  | nil => rfl
  | cons c rest =>
    rw [literalBody?]
    intro other hc
    obtain ⟨rfl, -⟩ := List.cons.inj hc
    exact h rfl

/-- Any other character is read as itself. -/
theorem literalBody?_char (hb : c ≠ '\\') (hq : c ≠ '\'') :
    literalBody? (c :: rest) = (literalBody? rest).map fun (value, rest) => (c :: value, rest) := by
  rw [literalBody?, if_neg hb]
  · rintro _ _ rfl
    exact absurd rfl hb
  · rintro _ rfl
    exact absurd rfl hq
  · rintro rfl
    exact absurd rfl hq

end Steps

/-- A wildcard keeps the backslash in front of it. -/
theorem escapeValue_of_isWildcard {c : Char} (h : isWildcard c = true) : escapeValue c = ['\\', c] :=
  if_pos h

/-- An escape stands for two characters at most. -/
theorem length_escapeValue_le (c : Char) : (escapeValue c).length ≤ 2 := by
  unfold escapeValue
  split <;> simp

/-- No other character stands for a backslash. -/
theorem getD_control?_ne {c : Char} (hb : c ≠ '\\') : (control? c).getD c ≠ '\\' := by
  unfold control?
  split
  case h_7 => exact hb
  all_goals decide

/-- What is written of a text behind the opening quote. -/
def writtenBody (text : List Char) : List Char := Text.doubled '\'' text ++ ['\'']

/-- A quote is written doubled. -/
theorem writtenBody_quote (text : List Char) :
    writtenBody ('\'' :: text) = '\'' :: '\'' :: writtenBody text := rfl

/-- Any other character is written as itself. -/
theorem writtenBody_char {c : Char} (h : c ≠ '\'') (text : List Char) :
    writtenBody (c :: text) = c :: writtenBody text :=
  congrArg (· ++ ['\'']) (if_neg h)

/-- What is read in front of the rest of a literal. -/
theorem exists_of_map_append (front : List Char) {value rest : List Char}
    {body : Option (List Char × List Char)}
    (h : (body.map fun (value, rest) => (front ++ value, rest)) = some (value, rest)) :
    ∃ others, body = some (others, rest) ∧ value = front ++ others := by
  obtain ⟨⟨others, rest⟩, hbody, hread⟩ := Option.map_eq_some_iff.mp h
  obtain ⟨rfl, rfl⟩ := Prod.mk.inj hread
  exact ⟨others, hbody, rfl⟩

/-- What is put in front of a reading can be taken away again. -/
theorem map_append_eq_some_iff (front : List Char) {value : List Char}
    {body : Option (List Char × List Char)} :
    (body.map fun (value, rest) => (front ++ value, rest)) = some (front ++ value, []) ↔
      body = some (value, []) := by
  constructor
  · intro h
    obtain ⟨others, hbody, heq⟩ := exists_of_map_append front h
    rw [hbody, List.append_cancel_left heq]
  · rintro rfl
    rfl

section Written

variable {c : Char} {text value rest : List Char}

/-- Without a backslash, a character is read as it was written. -/
theorem literalBody?_writtenBody_cons (hb : c ≠ '\\') :
    literalBody? (writtenBody (c :: text)) =
      (literalBody? (writtenBody text)).map fun (value, rest) => (c :: value, rest) := by
  by_cases hq : c = '\''
  · rw [hq, writtenBody_quote, literalBody?_quotes]
  · rw [writtenBody_char hq, literalBody?_char hb hq]

/-- A backslash and the character behind it are read together. -/
theorem literalBody?_writtenBody_escape (hq : c ≠ '\'') :
    literalBody? (writtenBody ('\\' :: c :: text)) =
      (literalBody? (writtenBody text)).map fun (value, rest) => (escapeValue c ++ value, rest) := by
  rw [writtenBody_char (by decide), writtenBody_char hq, literalBody?_escape]

/-- Of a quote behind a backslash, only the first of the two that are written is escaped. -/
theorem literalBody?_writtenBody_escapedQuote :
    literalBody? (writtenBody ('\\' :: '\'' :: text)) =
      (literalBody? ('\'' :: writtenBody text)).map fun (value, rest) => ('\'' :: value, rest) := by
  rw [writtenBody_char (by decide), writtenBody_quote, literalBody?_escape]
  rfl

/-- A literal that is read from the second of two quotes on ends before the next character that is no
quote. -/
theorem length_value_le_of_shifted (h : literalBody? ('\'' :: writtenBody text) = some (value, rest)) :
    value.length ≤ text.length := by
  induction text generalizing value with
  | nil => contradiction
  | cons c text ih =>
    by_cases hq : c = '\''
    · rw [hq, writtenBody_quote, literalBody?_quotes] at h
      obtain ⟨others, hbody, rfl⟩ := exists_of_map_append ['\''] h
      exact Nat.succ_le_succ (ih hbody)
    · rw [writtenBody_char hq, literalBody?_quote (by simpa using hq)] at h
      obtain ⟨rfl, -⟩ := Prod.mk.inj (Option.some.inj h)
      exact Nat.zero_le _

/-- A text is not made longer by writing and reading it. -/
theorem length_value_le (h : literalBody? (writtenBody text) = some (value, rest)) :
    value.length ≤ text.length := by
  induction text using List.twoStepInduction generalizing value with
  | nil =>
    obtain ⟨rfl, -⟩ := Prod.mk.inj (Option.some.inj h)
    exact Nat.le_refl _
  | singleton c =>
    by_cases hb : c = '\\'
    · subst hb
      contradiction
    · rw [literalBody?_writtenBody_cons hb] at h
      obtain ⟨rfl, -⟩ := Prod.mk.inj (Option.some.inj h)
      exact Nat.le_refl _
  | cons_cons c d text ih ih' =>
    by_cases hb : c = '\\'
    · subst hb
      by_cases hq : d = '\''
      · rw [hq, literalBody?_writtenBody_escapedQuote] at h
        obtain ⟨others, hbody, rfl⟩ := exists_of_map_append ['\''] h
        have := length_value_le_of_shifted hbody
        simp only [List.length_append, List.length_cons, List.length_nil]
        omega
      · rw [literalBody?_writtenBody_escape hq] at h
        obtain ⟨others, hbody, rfl⟩ := exists_of_map_append (escapeValue d) h
        have := ih hbody
        have := length_escapeValue_le d
        simp only [List.length_cons, List.length_append]
        omega
    · rw [literalBody?_writtenBody_cons hb] at h
      obtain ⟨others, hbody, rfl⟩ := exists_of_map_append [c] h
      exact Nat.succ_le_succ (ih' d hbody)

end Written

/-- Every backslash stands right before a wildcard. -/
def BackslashesKept (text : List Char) : Prop :=
  ∀ before after, text = before ++ '\\' :: after → ∃ c ∈ after.head?, isWildcard c = true

theorem backslashesKept_nil : BackslashesKept [] := by
  intro before after h
  simp at h

/-- A backslash is kept only in front of a wildcard. -/
theorem backslashesKept_cons {c : Char} {text : List Char} :
    BackslashesKept (c :: text) ↔
      (c = '\\' → ∃ d ∈ text.head?, isWildcard d = true) ∧ BackslashesKept text := by
  constructor
  · intro h
    refine ⟨fun hc => h [] text (by rw [hc]; rfl), fun before after ht => ?_⟩
    exact h (c :: before) after (by rw [ht]; rfl)
  · rintro ⟨hfirst, hrest⟩ before after ht
    cases before with
    | nil =>
      obtain ⟨rfl, rfl⟩ := List.cons.inj ht
      exact hfirst rfl
    | cons b before => exact hrest before after (List.cons.inj ht).2

/-- An escape that is no wildcard loses its backslash, and what follows does not make up for it:
where two backslashes are read as one, the rest would have to grow by the other. -/
theorem literalBody?_writtenBody_escape_ne {c : Char} (hw : isWildcard c = false) (text : List Char) :
    literalBody? (writtenBody ('\\' :: c :: text)) ≠ some ('\\' :: c :: text, []) := by
  intro h
  by_cases hq : c = '\''
  · rw [hq, literalBody?_writtenBody_escapedQuote] at h
    obtain ⟨others, -, heq⟩ := exists_of_map_append ['\''] h
    exact absurd (List.cons.inj heq).1 (by decide)
  · rw [literalBody?_writtenBody_escape hq] at h
    obtain ⟨others, hbody, heq⟩ := exists_of_map_append (escapeValue c) h
    by_cases hb : c = '\\'
    · subst hb
      have hlonger : '\\' :: text = others := (List.cons.inj heq).2
      have := length_value_le hbody
      rw [← hlonger, List.length_cons] at this
      omega
    · rw [escapeValue, if_neg (by simp [hw])] at heq
      exact getD_control?_ne hb (List.cons.inj heq).1.symm

/-- A text is read back from what is written of it exactly if its backslashes are kept. -/
theorem literalBody?_writtenBody_iff {text : List Char} :
    literalBody? (writtenBody text) = some (text, []) ↔ BackslashesKept text := by
  induction text using List.twoStepInduction with
  | nil => exact iff_of_true rfl backslashesKept_nil
  | singleton c =>
    by_cases hb : c = '\\'
    · subst hb
      rw [backslashesKept_cons]
      simp [writtenBody, Text.doubled, literalBody?]
    · rw [literalBody?_writtenBody_cons hb, backslashesKept_cons]
      exact iff_of_true rfl ⟨fun h => absurd h hb, backslashesKept_nil⟩
  | cons_cons c d text ih ih' =>
    by_cases hb : c = '\\'
    · subst hb
      cases hw : isWildcard d with
      | false =>
        refine iff_of_false (literalBody?_writtenBody_escape_ne hw text) fun h => ?_
        simpa [hw] using (backslashesKept_cons.mp h).1 rfl
      | true =>
        have hd : d ≠ '\\' ∧ d ≠ '\'' := by
          constructor <;> rintro rfl <;> contradiction
        rw [literalBody?_writtenBody_escape hd.2, escapeValue_of_isWildcard hw]
        refine (map_append_eq_some_iff ['\\', d]).trans (ih.trans ?_)
        simp [backslashesKept_cons, hw, hd.1]
    · rw [literalBody?_writtenBody_cons hb]
      refine (map_append_eq_some_iff [c]).trans ((ih' d).trans ?_)
      simp [backslashesKept_cons (c := c), hb]

/-- The literal of a text in MySQL is read as one literal up to its end, with the text as its value,
exactly if every backslash of the text stands right before a wildcard. -/
theorem mysql_literal_read_back_iff {α : Type} [Numeral α] (text : String) :
    ∃ sql, Dialect.mysql.compile (.literal (.text text) : Expr α) = .ok sql ∧
      (readLiteral? sql.toList = some (text.toList, []) ↔ BackslashesKept text.toList) := by
  refine ⟨Text.enclosed '\'' '\'' text, ?_, ?_⟩
  · rw [Dialect.compile, compile]
    rfl
  · rw [Text.enclosed, String.toList_ofList]
    exact literalBody?_writtenBody_iff

/-- A text that ends in a backslash has a literal that does not end. -/
theorem mysql_literal_not_read_back :
    ¬ ∀ text : String, ∃ sql, Dialect.mysql.compile (.literal (.text text) : Expr Float) = .ok sql ∧
      readLiteral? sql.toList = some (text.toList, []) := by
  intro hall
  obtain ⟨sql, hsql, hread⟩ := hall "\\"
  have hwritten : Dialect.mysql.compile (.literal (.text "\\") : Expr Float) = .ok "'\\'" := by
    rw [Dialect.compile, compile]
    rfl
  obtain rfl := Except.ok.inj (hsql.symm.trans hwritten)
  exact absurd hread (by decide)

/-- Behind an escaped quote the literal ends early, and the rest of the text becomes code. -/
example : readLiteral? (Text.enclosed '\'' '\'' "\\' OR 1=1 -- ").toList =
    some (['\''], " OR 1=1 -- '".toList) := by
  decide

end SpatialSql.Sql
