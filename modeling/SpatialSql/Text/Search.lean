import SpatialSql.Text.Blank

/-!
# Searching and replacing text

All searches find the leftmost occurrence. An empty pattern occurs at the very
start, and replacing it puts the replacement around every character.
-/

namespace SpatialSql.Text

/-- The text before and after the first occurrence of a pattern. -/
def cut? (pattern : List Char) : List Char → Option (List Char × List Char)
  | [] => if pattern.isEmpty then some ([], []) else none
  | c :: rest =>
    if pattern.isPrefixOf (c :: rest) then some ([], (c :: rest).drop pattern.length)
    else (cut? pattern rest).map fun (before, after) => (c :: before, after)

/-- A cut takes out one copy of the pattern. -/
theorem cut?_eq_append {pattern text head tail : List Char}
    (h : cut? pattern text = some (head, tail)) : text = head ++ pattern ++ tail := by
  induction text generalizing head tail with
  | nil =>
    simp only [cut?, List.isEmpty_iff] at h
    split at h
    · simp_all
    · contradiction
  | cons c rest ih =>
    simp only [cut?] at h
    split at h
    · rename_i hp
      simp only [Option.some.injEq, Prod.mk.injEq] at h
      obtain ⟨rfl, rfl⟩ := h
      obtain ⟨t, ht⟩ := List.isPrefixOf_iff_prefix.mp hp
      rw [← ht]
      simp
    · obtain ⟨⟨before, after⟩, hr, he⟩ := Option.map_eq_some_iff.mp h
      simp only [Prod.mk.injEq] at he
      obtain ⟨rfl, rfl⟩ := he
      simp [ih hr]

/-- What follows a nonempty pattern is shorter than the text. -/
theorem cut?_length_lt {pattern text head tail : List Char}
    (h : cut? pattern text = some (head, tail)) (hp : pattern ≠ []) :
    tail.length < text.length := by
  have := List.length_pos_iff.mpr hp
  rw [cut?_eq_append h]
  simp only [List.length_append]
  omega

/-- The text before the first occurrence of a delimiter; empty when there is none. -/
def before (delimiter text : List Char) : List Char :=
  match cut? delimiter text with
  | some (head, _) => head
  | none => []

/-- The text after the first occurrence of a delimiter; all of it when there is none. -/
def after (delimiter text : List Char) : List Char :=
  match cut? delimiter text with
  | some (_, tail) => tail
  | none => text

/-- Replaces every occurrence of the nonempty pattern `first :: others`, left to right and
without overlap. -/
def replaceFrom (first : Char) (others replacement : List Char) : List Char → List Char
  | [] => []
  | c :: rest =>
    if c = first ∧ others.isPrefixOf rest then
      replacement ++ replaceFrom first others replacement (rest.drop others.length)
    else c :: replaceFrom first others replacement rest
  termination_by text => text.length
  decreasing_by all_goals simp only [List.length_drop, List.length_cons]; omega

/-- Replaces every occurrence of a pattern, left to right and without overlap. -/
def replace (pattern replacement text : List Char) : List Char :=
  match pattern with
  | [] => replacement ++ text.flatMap fun c => c :: replacement
  | first :: others => replaceFrom first others replacement text

/-- The maximal nonempty runs of characters that are no separators. -/
def tokens (separator : Char → Bool) : List Char → List (List Char)
  | [] => []
  | c :: rest =>
    if separator c then tokens separator rest
    else
      match rest with
      | [] => [[c]]
      | d :: _ =>
        if separator d then [c] :: tokens separator rest
        else
          match tokens separator rest with
          | [] => [[c]]
          | run :: runs => (c :: run) :: runs

/-- Writes a character twice wherever it occurs. -/
def doubled (mark : Char) : List Char → List Char
  | [] => []
  | c :: rest => if c = mark then c :: c :: doubled mark rest else c :: doubled mark rest

/-- Encloses a text; a closing mark inside it is written twice. -/
def enclosed (opening closing : Char) (text : String) : String :=
  String.ofList (opening :: doubled closing text.toList ++ [closing])

end SpatialSql.Text
