import SpatialSql.Proofs.Text.Editing

/-!
# Tokens and cuts of texts put together

A separator splits the tokens of a text, so that the tokens of a text put together with
separators are those of its parts. A text is cut at the first place where the mark occurs.
-/

namespace SpatialSql.Text

variable {separator : Char → Bool}

/-- A token starts with its first character. -/
theorem tokens_cons_ne_nil {c : Char} (hc : separator c = false)
    (text : List Char) : tokens separator (c :: text) ≠ [] := by
  unfold tokens
  simp only [hc, Bool.false_eq_true, if_false]
  split
  · simp
  · split
    · simp
    · split <;> simp

/-- A separator splits the tokens of a text. -/
theorem tokens_append_cons {c : Char} (hc : separator c = true)
    (text rest : List Char) :
    tokens separator (text ++ c :: rest) =
      tokens separator text ++ tokens separator rest := by
  induction text with
  | nil => simp [tokens, hc]
  | cons d text ih =>
    by_cases hd : separator d = true
    · simp only [List.cons_append, tokens, hd, if_true, ih]
    · cases text with
      | nil => simp [tokens, hd, hc]
      | cons e text =>
        rw [List.cons_append] at ih
        rw [List.cons_append, List.cons_append, tokens]
        conv_rhs => rw [tokens]
        by_cases he : separator e = true
        · simp only [hd, he, Bool.false_eq_true, if_false, if_true, ih, List.cons_append]
        · obtain ⟨run, runs, hr⟩ := List.exists_cons_of_ne_nil
            (tokens_cons_ne_nil (by simpa using he) text)
          simp only [hd, he, Bool.false_eq_true, if_false, ih, hr, List.cons_append]

/-- A text without separators is one token. -/
theorem tokens_eq_singleton {text : List Char} (hne : text ≠ [])
    (ht : ∀ c ∈ text, separator c = false) : tokens separator text = [text] := by
  induction text with
  | nil => contradiction
  | cons c rest ih =>
    have hc : separator c = false := ht c List.mem_cons_self
    cases rest with
    | nil => simp [tokens, hc]
    | cons d rest =>
      have hd : separator d = false := ht d (by simp)
      have ih := ih (by simp) fun e he => ht e (List.mem_cons_of_mem _ he)
      rw [tokens]
      simp only [hc, hd, ih, Bool.false_eq_true, if_false]

/-- A separator in front of a text is no part of a token. -/
theorem tokens_cons {c : Char} (hc : separator c = true) (rest : List Char) :
    tokens separator (c :: rest) = tokens separator rest :=
  tokens_append_cons hc [] rest

/-- A separator behind a text is no part of a token. -/
theorem tokens_concat {c : Char} (hc : separator c = true) (text : List Char) :
    tokens separator (text ++ [c]) = tokens separator text := by
  rw [tokens_append_cons hc]
  exact List.append_nil _

/-- Separators around a text are no part of a token. -/
theorem tokens_enclosed {opening closing : List Char} (ho : opening.all separator = true)
    (hc : closing.all separator = true) (text : List Char) :
    tokens separator (opening ++ text ++ closing) = tokens separator text := by
  rw [List.all_eq_true] at ho hc
  have hright (text : List Char) : tokens separator (text ++ closing) = tokens separator text := by
    induction closing generalizing text with
    | nil => rw [List.append_nil]
    | cons c closing ih =>
      have hrest := ih (fun e he => hc e (List.mem_cons_of_mem _ he)) (text ++ [c])
      rw [List.append_assoc, List.singleton_append] at hrest
      rw [hrest, tokens_concat (hc c List.mem_cons_self)]
  rw [hright]
  induction opening with
  | nil => rfl
  | cons c opening ih =>
    rw [List.cons_append, tokens_cons (ho c List.mem_cons_self)]
    exact ih fun e he => ho e (List.mem_cons_of_mem _ he)

/-- Separators split the tokens of a text. -/
theorem tokens_append_append {glue : List Char} (hne : glue ≠ [])
    (hg : glue.all separator = true) (text rest : List Char) :
    tokens separator (text ++ glue ++ rest) = tokens separator text ++ tokens separator rest := by
  rw [List.all_eq_true] at hg
  induction glue generalizing text with
  | nil => contradiction
  | cons c glue ih =>
    have hc := hg c List.mem_cons_self
    cases glue with
    | nil => rw [List.append_assoc, List.singleton_append, tokens_append_cons hc]
    | cons d glue =>
      have hrest := ih (by simp) (fun e he => hg e (List.mem_cons_of_mem _ he)) (text ++ [c])
      rw [tokens_concat hc] at hrest
      rw [← hrest]
      simp only [List.append_assoc, List.singleton_append]

/-- The tokens of texts that are joined by separators. -/
theorem tokens_intercalate {glue : String} (hne : glue.toList ≠ [])
    (hg : glue.toList.all separator = true) (texts : List String) :
    tokens separator (String.intercalate glue texts).toList =
      texts.flatMap fun text => tokens separator text.toList := by
  induction texts with
  | nil =>
    rw [String.intercalate_nil]
    rfl
  | cons text rest ih =>
    cases rest with
    | nil => simp
    | cons next more =>
      rw [String.intercalate_cons_cons, String.toList_append, String.toList_append,
        tokens_append_append hne hg, ih]
      rfl

/-- A text is cut at the first occurrence of a mark. -/
theorem cut?_append_cons {mark : Char} {text : List Char} (h : mark ∉ text) (rest : List Char) :
    cut? [mark] (text ++ mark :: rest) = some (text, rest) :=
  cut?_pattern h rest

/-- A text is cut at a mark into what stands before its first occurrence and what follows. -/
theorem cut?_mark_eq_some_iff {mark : Char} {text head tail : List Char} :
    cut? [mark] text = some (head, tail) ↔ text = head ++ mark :: tail ∧ mark ∉ head := by
  constructor
  · intro h
    have htext := cut?_eq_append h
    have hmem : mark ∈ text := by
      rw [htext]
      simp
    obtain ⟨head', tail', rfl, hhead⟩ := List.eq_append_cons_of_mem hmem
    rw [cut?_append_cons hhead] at h
    cases h
    exact ⟨rfl, hhead⟩
  · rintro ⟨rfl, hhead⟩
    exact cut?_append_cons hhead tail

/-- A text that a mark does not occur in cannot be cut there. -/
theorem cut?_mark_eq_none_iff {mark : Char} {text : List Char} :
    cut? [mark] text = none ↔ mark ∉ text := by
  constructor
  · intro h hmem
    obtain ⟨head, tail, rfl, hhead⟩ := List.eq_append_cons_of_mem hmem
    rw [cut?_append_cons hhead] at h
    contradiction
  · intro hmem
    rw [Option.eq_none_iff_forall_ne_some]
    rintro ⟨head, tail⟩ h
    rw [(cut?_mark_eq_some_iff.mp h).1] at hmem
    simp at hmem

end SpatialSql.Text
