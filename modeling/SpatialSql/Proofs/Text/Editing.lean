import SpatialSql.Text.Search
import Mathlib.Data.List.Basic

/-!
# Texts cut, replaced and trimmed

A pattern can only occur where its first character does. So a pattern whose first character
occurs nowhere else is found at its one place: a text is cut there, and replacing changes
nothing else. A mark that is replaced by nothing is left out wherever it occurs, and blanks
in front of a text without blanks at its ends are all that trimming removes.
-/

namespace SpatialSql.Text

variable {first : Char} {others replacement head tail text : List Char}

/-- A character that does not begin the pattern is kept. -/
theorem replaceFrom_cons_of_ne {c : Char} (hc : c ≠ first) (rest : List Char) :
    replaceFrom first others replacement (c :: rest) =
      c :: replaceFrom first others replacement rest := by
  rw [replaceFrom, if_neg fun h => hc h.1]

/-- As far as the first character of the pattern does not occur, a text is left as it is. -/
theorem replaceFrom_append (h : first ∉ head) (rest : List Char) :
    replaceFrom first others replacement (head ++ rest) =
      head ++ replaceFrom first others replacement rest := by
  induction head with
  | nil => rfl
  | cons c head ih =>
    obtain ⟨hc, hhead⟩ := not_or.mp (mt List.mem_cons.mpr h)
    rw [List.cons_append, replaceFrom_cons_of_ne (Ne.symm hc), ih hhead, List.cons_append]

/-- A text without the first character of the pattern is kept. -/
theorem replaceFrom_eq_self (h : first ∉ text) : replaceFrom first others replacement text = text := by
  calc replaceFrom first others replacement text
      = replaceFrom first others replacement (text ++ []) := by rw [List.append_nil]
    _ = text ++ replaceFrom first others replacement [] := replaceFrom_append h []
    _ = text := by rw [replaceFrom, List.append_nil]

/-- An occurrence is replaced, and the search goes on behind it. -/
theorem replaceFrom_pattern (rest : List Char) :
    replaceFrom first others replacement (first :: others ++ rest) =
      replacement ++ replaceFrom first others replacement rest := by
  have hoccurs : first = first ∧ others.isPrefixOf (others ++ rest) = true :=
    ⟨rfl, List.isPrefixOf_iff_prefix.mpr (List.prefix_append others rest)⟩
  rw [List.cons_append, replaceFrom, if_pos hoccurs, List.drop_left]

/-- A pattern is replaced where it occurs, and nothing else is changed if its first character does not
occur elsewhere. -/
theorem replace_pattern (hh : first ∉ head) (ht : first ∉ tail) :
    replace (first :: others) replacement (head ++ (first :: others ++ tail)) =
      head ++ (replacement ++ tail) := by
  rw [replace, replaceFrom_append hh, replaceFrom_pattern, replaceFrom_eq_self ht]

/-- A mark that is replaced by nothing is left out wherever it occurs. -/
theorem replace_mark_nil (mark : Char) (text : List Char) :
    replace [mark] [] text = text.filter (· != mark) := by
  rw [replace]
  induction text with
  | nil => rw [replaceFrom, List.filter_nil]
  | cons c rest ih =>
    by_cases hc : c = mark
    · subst hc
      have hpattern : replaceFrom c [] [] (c :: rest) = replaceFrom c [] [] rest :=
        replaceFrom_pattern rest
      rw [hpattern, ih, List.filter_cons_of_neg (by simp)]
    · rw [replaceFrom_cons_of_ne hc, ih, List.filter_cons_of_pos (by simpa using hc)]

/-- Removing a character shortens the text by its number of occurrences. -/
theorem length_replace_mark (mark : Char) (text : List Char) :
    (replace [mark] [] text).length + text.count mark = text.length := by
  rw [replace_mark_nil]
  induction text with
  | nil => rfl
  | cons c rest ih =>
    by_cases hc : c = mark
    · subst hc
      rw [List.filter_cons_of_neg (by simp), List.count_cons_self, List.length_cons, ← ih]
      omega
    · rw [List.filter_cons_of_pos (by simpa using hc), List.count_cons_of_ne hc, List.length_cons,
        List.length_cons, ← ih]
      omega

/-- A text is cut where a pattern occurs if its first character does not occur before. -/
theorem cut?_pattern (hh : first ∉ head) (tail : List Char) :
    cut? (first :: others) (head ++ (first :: others ++ tail)) = some (head, tail) := by
  induction head with
  | nil =>
    have hoccurs : (first :: others).isPrefixOf (first :: others ++ tail) = true :=
      List.isPrefixOf_iff_prefix.mpr (List.prefix_append _ tail)
    rw [List.nil_append, List.cons_append, cut?, ← List.cons_append, if_pos hoccurs, List.drop_left]
  | cons c head ih =>
    obtain ⟨hc, hhead⟩ := not_or.mp (mt List.mem_cons.mpr hh)
    have hnot : (first :: others).isPrefixOf (c :: (head ++ (first :: others ++ tail))) = false := by
      simp [List.isPrefixOf, hc]
    rw [List.cons_append, cut?, hnot, ih hhead]
    rfl

/-- The text before a pattern is what precedes its first character. -/
theorem before_pattern (hh : first ∉ head) (tail : List Char) :
    before (first :: others) (head ++ (first :: others ++ tail)) = head := by
  rw [before, cut?_pattern hh]

/-- The text behind a pattern is all that follows it. -/
theorem after_pattern (hh : first ∉ head) (tail : List Char) :
    after (first :: others) (head ++ (first :: others ++ tail)) = tail := by
  rw [after, cut?_pattern hh]

/-- The text has no blank at either end. -/
structure Tight (text : List Char) : Prop where
  head : ∀ c ∈ text.head?, isBlank c = false
  last : ∀ c ∈ text.getLast?, isBlank c = false

theorem dropWhile_eq_self {p : Char → Bool} (h : ∀ c ∈ text.head?, p c = false) :
    text.dropWhile p = text := by
  cases text with
  | nil => rfl
  | cons c rest => rw [List.dropWhile_cons_of_neg (by simpa using h c rfl)]

/-- Trimming removes the blanks in front of a tight text and nothing else. -/
theorem trimmed_append {blanks : List Char} (hb : ∀ c ∈ blanks, isBlank c = true)
    (h : Tight text) : trimmed (blanks ++ text) = text := by
  have hlast : ∀ c ∈ text.reverse.head?, isBlank c = false := by
    rw [List.head?_reverse]
    exact h.last
  rw [trimmed, List.dropWhile_append_of_pos hb, dropWhile_eq_self h.head, dropWhile_eq_self hlast,
    List.reverse_reverse]

/-- Texts that are tight and not empty stay so around any text. -/
theorem Tight.append {text' : List Char} (h : Tight text) (hne : text ≠ []) (h' : Tight text')
    (hne' : text' ≠ []) (middle : List Char) : Tight (text ++ (middle ++ text')) where
  head c hc := by
    rw [List.head?_append_of_ne_nil _ hne] at hc
    exact h.head c hc
  last c hc := by
    rw [List.getLast?_append_of_ne_nil _ (by simp [hne']), List.getLast?_append_of_ne_nil _ hne'] at hc
    exact h'.last c hc

end SpatialSql.Text
