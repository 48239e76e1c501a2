import SpatialSql.Proofs.Sql.Spans
import SpatialSql.Proofs.Text.Tokens

/-!
# What a scan has seen

The scanner keeps a few facts about the text behind it. This module proves that they
stay true of every text it gets through, with words, brackets and comment marks counted
in the text itself, and concludes that a spanning text is contained, and that it is
self-delimited exactly if it is not exposed.
-/

namespace SpatialSql.Sql

/-- The words of a text that is cut at a character of no word. -/
theorem words_append_cons {c : Char} (hc : isWordChar c = false) (text rest : List Char) :
    words (text ++ c :: rest) = words text ++ words rest :=
  Text.tokens_append_cons (by simp [hc]) text rest

/-- How often a nonempty word is among the words of a word. -/
theorem count_words {word : List Char} (hw : ∀ c ∈ word, isWordChar c = true) {keyword : List Char}
    (hk : keyword ≠ []) : (words word).count keyword = if word = keyword then 1 else 0 := by
  by_cases hne : word = []
  · subst hne
    simp [words, Text.tokens, hk.symm]
  · rw [words, Text.tokens_eq_singleton hne fun c hc => by simp [hw c hc], List.count_singleton]
    simp

/-- Closing a bracket takes away one of its kind. -/
theorem count_drop? {b : Bracket} {opened rest : List Bracket} (h : drop? b opened = some rest)
    (a : Bracket) : rest.count a + (if a = b then 1 else 0) = opened.count a := by
  cases opened with
  | nil => contradiction
  | cons top inner =>
    simp only [drop?] at h
    split at h
    · next ht =>
      rw [← Option.some.inj h, ht, List.count_cons]
      by_cases ha : a = b
      · simp [ha]
      · simp [ha, Ne.symm ha]
    · contradiction

/-- What a character of no word does to the brackets, as counts. -/
theorem count_nest? {c : Char} {opened rest : List Bracket} (h : nest? c opened = some rest) :
    rest.count .parenthesis + [c].count ')' = opened.count .parenthesis + [c].count '(' ∧
      rest.count .square + [c].count ']' = opened.count .square + [c].count '[' ∧
      rest.count .case = opened.count .case := by
  unfold nest? at h
  split at h
  · simp [← Option.some.inj h]
  · simp [← Option.some.inj h]
  · simpa using ⟨count_drop? h .parenthesis, count_drop? h .square, count_drop? h .case⟩
  · simpa using ⟨count_drop? h .parenthesis, count_drop? h .square, count_drop? h .case⟩
  · next h₁ h₂ h₃ h₄ =>
    have hne : c ≠ '(' ∧ c ≠ '[' ∧ c ≠ ')' ∧ c ≠ ']' := ⟨h₁, h₂, h₃, h₄⟩
    rw [← Option.some.inj h]
    simp [hne]

/-- What a word does to the brackets, as counts. -/
theorem count_nestWord? {word : List Char} {opened rest : List Bracket}
    (hw : ∀ c ∈ word, isWordChar c = true) (h : nestWord? word opened = some rest) :
    rest.count .parenthesis = opened.count .parenthesis ∧
      rest.count .square = opened.count .square ∧
      rest.count .case + (words word).count "END".toList =
        opened.count .case + (words word).count "CASE".toList := by
  rw [count_words hw (by decide), count_words hw (by decide)]
  unfold nestWord? at h
  by_cases hcase : word = "CASE".toList
  · rw [if_pos hcase] at h
    have hend : word ≠ "END".toList := by
      rw [hcase]
      decide
    rw [← Option.some.inj h, if_neg hend, if_pos hcase]
    simp
  · rw [if_neg hcase] at h
    by_cases hend : word = "END".toList
    · rw [if_pos hend] at h
      rw [if_pos hend, if_neg hcase]
      simpa using ⟨count_drop? h .parenthesis, count_drop? h .square, count_drop? h .case⟩
    · rw [if_neg hend] at h
      rw [← Option.some.inj h, if_neg hend, if_neg hcase]
      simp

/-- What stands open, counted by kinds. -/
theorem length_eq_counts (opened : List Bracket) :
    opened.length = opened.count .parenthesis + opened.count .square + opened.count .case := by
  induction opened with
  | nil => rfl
  | cons b rest ih =>
    cases b <;> simp [ih] <;> omega

/-- Two characters stand next to each other, one of them possibly in front of what is added. -/
theorem infix_pair_concat {a b c : Char} {text : List Char} (h : [a, b] <:+: text ++ [c]) :
    [a, b] <:+: text ∨ (text.getLast? = some a ∧ c = b) := by
  rcases List.infix_concat_iff.mp h with hs | hi
  · rcases List.suffix_concat_iff.mp hs with hnil | ⟨t, ht, hsuffix⟩
    · contradiction
    · obtain ⟨ha, hb⟩ := List.append_inj' (show [a] ++ [b] = t ++ [c] from ht) rfl
      obtain ⟨front, rfl⟩ := ha ▸ hsuffix
      exact Or.inr ⟨by simp, (List.cons.inj hb).1.symm⟩
  · exact Or.inl hi

/-- A blank with nothing open around it. -/
def ShowsBlank (text : List Char) : Prop :=
  ∃ pre c post, text = pre ++ c :: post ∧ Text.isBlank c = true ∧ depth pre ≤ 0

theorem showsBlank_concat {c : Char} {text : List Char} :
    ShowsBlank (text ++ [c]) ↔ ShowsBlank text ∨ (Text.isBlank c = true ∧ depth text ≤ 0) := by
  constructor
  · rintro ⟨pre, d, post, he, hd, hdepth⟩
    rcases List.eq_nil_or_concat post with rfl | ⟨front, e, rfl⟩
    · obtain ⟨rfl, hc⟩ := List.append_inj' he rfl
      rw [(List.cons.inj hc).1]
      exact Or.inr ⟨hd, hdepth⟩
    · rw [List.concat_eq_append, ← List.cons_append, ← List.append_assoc] at he
      obtain ⟨rfl, -⟩ := List.append_inj' he rfl
      exact Or.inl ⟨pre, d, front, rfl, hd, hdepth⟩
  · rintro (⟨pre, d, post, rfl, hd, hdepth⟩ | ⟨hc, hdepth⟩)
    · exact ⟨pre, d, post ++ [c], by simp, hd, hdepth⟩
    · exact ⟨text, c, [], rfl, hc, hdepth⟩

/-- A blank is no character of a word. -/
theorem isBlank_of_isWordChar {c : Char} (h : isWordChar c = true) : Text.isBlank c = false := by
  have hrange : 48 ≤ c.toNat ∧ c.toNat ≤ 122 := by
    change (((decide ('A'.val ≤ c.val ∧ c.val ≤ 'Z'.val) ||
      (decide ('a'.val ≤ c.val) && decide (c.val ≤ 'z'.val))) ||
      (decide ('0'.val ≤ c.val) && decide (c.val ≤ '9'.val))) || c == '_') = true at h
    simp only [Bool.or_eq_true, Bool.and_eq_true, decide_eq_true_eq, beq_iff_eq,
      UInt32.le_iff_toNat_le] at h
    rcases h with ((h | h) | h) | rfl
    · exact ⟨Nat.le_trans (by decide) h.1, Nat.le_trans h.2 (by decide)⟩
    · exact ⟨Nat.le_trans (by decide) h.1, Nat.le_trans h.2 (by decide)⟩
    · exact ⟨Nat.le_trans (by decide) h.1, Nat.le_trans h.2 (by decide)⟩
    · decide
  simp only [Text.isBlank, Text.blankRanges, List.any_cons, List.any_nil, Bool.or_false,
    Bool.or_eq_false_iff, Bool.and_eq_false_iff, decide_eq_false_iff_not]
  omega

/-- What a scan knows is true of the text it has read. -/
structure Trace (text : List Char) (s : Scan) : Prop where
  parentheses : text.count '(' = text.count ')' + s.opened.count .parenthesis
  squares : text.count '[' = text.count ']' + s.opened.count .square
  /-- The words before the current one, whatever follows it. -/
  cases : ∃ done, (∀ rest, words (text ++ rest) = done ++ words (s.word ++ rest)) ∧
    done.count "CASE".toList = done.count "END".toList + s.opened.count .case
  word : ∀ c ∈ s.word, isWordChar c = true
  no_semicolon : ';' ∉ text
  no_line_comment : ¬ ['-', '-'] <:+: text
  no_block_comment : ¬ ['/', '*'] <:+: text
  mark : ∀ c, text.getLast? = some c → c = '-' ∨ c = '/' → s.mark = some c
  bare : s.bare = true ↔ ShowsBlank text

namespace Trace

variable {text : List Char} {s s' : Scan}

/-- Before anything is read. -/
theorem nil : Trace [] (.level [] false) where
  parentheses := rfl
  squares := rfl
  cases := ⟨[], fun _ => rfl, rfl⟩
  word := by simp [Scan.level]
  no_semicolon := by simp
  no_line_comment := by simp
  no_block_comment := by simp
  mark := by simp
  bare := by simp [Scan.level, ShowsBlank]

/-- As many brackets stand open as the text is deep. -/
theorem depth_eq (ht : Trace text s) (hf : s.finish = some s') :
    depth text = s'.opened.length := by
  obtain ⟨opened, ho, rfl⟩ := Option.map_eq_some_iff.mp hf
  obtain ⟨done, hdone, hcount⟩ := ht.cases
  obtain ⟨hp, hs, hc⟩ := count_nestWord? ht.word ho
  have hwords : words text = done ++ words s.word := by simpa using hdone []
  have := ht.parentheses
  have := ht.squares
  rw [depth, hwords, List.count_append, List.count_append, length_eq_counts opened]
  omega

/-- Reading on inside of a word. -/
theorem step_word {c : Char} (ht : Trace text s) (hc : isWordChar c = true) :
    Trace (text ++ [c]) ⟨s.opened, s.word ++ [c], none, s.bare⟩ := by
  have hne (d : Char) (hd : isWordChar d = false) : c ≠ d := by
    rintro rfl
    rw [hc] at hd
    contradiction
  have hcount (d : Char) (hd : isWordChar d = false) : (text ++ [c]).count d = text.count d := by
    simp [hne d hd]
  constructor
  · rw [hcount '(' (by decide), hcount ')' (by decide)]
    exact ht.parentheses
  · rw [hcount '[' (by decide), hcount ']' (by decide)]
    exact ht.squares
  · obtain ⟨done, hdone, hd⟩ := ht.cases
    refine ⟨done, fun rest => ?_, hd⟩
    rw [List.append_assoc, List.append_assoc]
    exact hdone ([c] ++ rest)
  · intro d hd
    rcases List.mem_append.mp hd with hd | hd
    · exact ht.word d hd
    · rw [List.mem_singleton.mp hd]
      exact hc
  · simpa using ⟨ht.no_semicolon, (hne ';' (by decide)).symm⟩
  · intro h
    rcases infix_pair_concat h with h | ⟨-, h⟩
    · exact ht.no_line_comment h
    · exact hne '-' (by decide) h
  · intro h
    rcases infix_pair_concat h with h | ⟨-, h⟩
    · exact ht.no_block_comment h
    · exact hne '*' (by decide) h
  · intro d hd hm
    rw [List.getLast?_concat] at hd
    rcases Option.some.inj hd ▸ hm with h | h
    · exact absurd h (hne '-' (by decide))
    · exact absurd h (hne '/' (by decide))
  · rw [showsBlank_concat, isBlank_of_isWordChar hc]
    simpa using ht.bare

/-- Reading a character of no word behind a finished one. -/
theorem step_other {c : Char} {t : Scan} (ht : Trace text s) (hc : isWordChar c = false)
    (hf : s.finish = some s') (hr : s'.read c = some t) : Trace (text ++ [c]) t := by
  have hdepth := ht.depth_eq hf
  obtain ⟨opened, ho, rfl⟩ := Option.map_eq_some_iff.mp hf
  unfold Scan.read at hr
  split at hr
  · contradiction
  next hescapes =>
  simp only [Scan.escapes, Bool.or_eq_true, Bool.and_eq_true, beq_iff_eq, not_or, not_and] at hescapes
  obtain ⟨⟨hsemicolon, hline⟩, hblock⟩ := hescapes
  obtain ⟨rest, hrest, rfl⟩ := Option.map_eq_some_iff.mp hr
  obtain ⟨hp, hs, hw⟩ := count_nestWord? ht.word ho
  obtain ⟨hp', hs', hw'⟩ := count_nest? hrest
  simp only at hp' hs' hw'
  constructor
  · change _ = _ + rest.count .parenthesis
    rw [List.count_append, List.count_append, ht.parentheses]
    omega
  · change _ = _ + rest.count .square
    rw [List.count_append, List.count_append, ht.squares]
    omega
  · obtain ⟨done, hdone, hd⟩ := ht.cases
    refine ⟨done ++ words s.word, fun more => ?_, ?_⟩
    · rw [List.append_assoc, List.singleton_append, hdone, words_append_cons hc, List.append_assoc]
      rfl
    · change _ = _ + rest.count .case
      rw [List.count_append, List.count_append]
      omega
  · simp
  · simpa using ⟨ht.no_semicolon, fun h => hsemicolon h.symm⟩
  · intro h
    rcases infix_pair_concat h with h | ⟨hlast, h⟩
    · exact ht.no_line_comment h
    · exact hline (ht.mark '-' hlast (Or.inl rfl)) h
  · intro h
    rcases infix_pair_concat h with h | ⟨hlast, h⟩
    · exact ht.no_block_comment h
    · exact hblock (ht.mark '/' hlast (Or.inr rfl)) h
  · intro d hd hm
    rw [List.getLast?_concat] at hd
    obtain rfl := Option.some.inj hd
    exact if_pos hm
  · have hopen : depth text ≤ 0 ↔ opened.isEmpty = true := by
      rw [hdepth, List.isEmpty_iff, ← List.length_eq_zero_iff]
      simp only
      omega
    rw [showsBlank_concat, hopen, Bool.or_eq_true, Bool.and_eq_true, ht.bare]

/-- A step of the scanner keeps its facts. -/
theorem step {c : Char} (ht : Trace text s) (h : s.step c = some s') : Trace (text ++ [c]) s' := by
  unfold Scan.step at h
  split at h
  · next hc =>
    rw [← Option.some.inj h]
    exact ht.step_word hc
  · next hc =>
    obtain ⟨t, hf, hr⟩ := Option.bind_eq_some_iff.mp h
    exact ht.step_other (by simpa using hc) hf hr

/-- A scan to its end, and every scan to a place before it, keeps its facts. -/
theorem run {rest : List Char} (ht : Trace text s) (h : rest.foldlM Scan.step s = some s') :
    Trace (text ++ rest) s' := by
  induction rest generalizing text s with
  | nil =>
    rw [List.append_nil, ← Option.some.inj h]
    exact ht
  | cons c rest ih =>
    rw [List.foldlM_cons] at h
    obtain ⟨t, hstep, hrun⟩ := Option.bind_eq_some_iff.mp h
    rw [List.append_cons]
    exact ih (ht.step hstep) hrun

end Trace

/-- A reader scans what its lexer shows. -/
theorem Reader.run_eq {q : Quoting} (r : Reader) (text : List Char) :
    r.run q text = ((r.mode.visible q text).foldlM Scan.step r.scan).map
      fun s => ⟨r.mode.after q text, s⟩ := by
  induction text generalizing r with
  | nil => rfl
  | cons c rest ih =>
    rw [run_cons, Mode.visible]
    cases hs : r.mode.shown? q c with
    | none => simp [step, hs, ih, Mode.after]
    | some shown =>
      cases ht : r.scan.step shown with
      | none => simp [step, hs, ht]
      | some s => simp [step, hs, ht, ih, Mode.after]

/-- What a spanning text shows is scanned to its end, where nothing stands open. -/
theorem Spans.foldlM_visible {q : Quoting} {exposed : Bool} {sql : String} (h : Spans q exposed sql) :
    ∃ s mark, (visible q sql).foldlM Scan.step (.level [] false) = some s ∧
      s.finish = some ⟨[], [], mark, exposed⟩ := by
  obtain ⟨r, hrun, hsettle⟩ := h [] false
  rw [Reader.run_eq] at hrun
  obtain ⟨s, hs, rfl⟩ := Option.map_eq_some_iff.mp hrun
  obtain ⟨⟨mark, hf⟩, -⟩ := Reader.settle_eq_some_iff.mp hsettle
  exact ⟨s, mark, hs, by simpa using hf⟩

/-- A spanning text is contained, exposed or not. -/
theorem Spans.contained {q : Quoting} {exposed : Bool} {sql : String} (h : Spans q exposed sql) :
    Contained q sql := by
  obtain ⟨s, mark, hs, hf⟩ := h.foldlM_visible
  have ht : Trace (visible q sql) s := Trace.nil.run hs
  constructor
  · intro close hclose
    obtain ⟨r, hrun, hsettle⟩ := h [] false
    rw [Reader.run_eq] at hrun
    obtain ⟨t, -, rfl⟩ := Option.map_eq_some_iff.mp hrun
    obtain ⟨-, hmode | ⟨_, hmode, -⟩⟩ := Reader.settle_eq_some_iff.mp hsettle
    · exact absurd (hclose.symm.trans hmode) (by simp)
    · exact absurd (hclose.symm.trans hmode) (by simp)
  · rintro pre ⟨post, hpost⟩
    rw [← hpost, List.foldlM_append] at hs
    obtain ⟨t, hpre, -⟩ := Option.bind_eq_some_iff.mp hs
    have hp := (Trace.nil.run hpre).parentheses
    rw [List.nil_append] at hp
    omega
  · obtain ⟨opened, ho, he⟩ := Option.map_eq_some_iff.mp hf
    have hopen : opened = [] := congrArg Scan.opened he
    have hp := (count_nestWord? ht.word ho).1
    rw [ht.parentheses, ← hp, hopen]
    rfl
  · exact ht.no_semicolon
  · exact ht.no_line_comment
  · exact ht.no_block_comment

/-- A spanning text is self-delimited exactly if it is not exposed. -/
theorem Spans.selfDelimited_iff {q : Quoting} {exposed : Bool} {sql : String}
    (h : Spans q exposed sql) : SelfDelimited q sql ↔ exposed = false := by
  obtain ⟨s, mark, hs, hf⟩ := h.foldlM_visible
  have ht : Trace (visible q sql) s := Trace.nil.run hs
  have hbare : s.bare = exposed := (Scan.bare_of_finish hf).symm
  have hblank : SelfDelimited q sql ↔ ¬ ShowsBlank (visible q sql) := by
    constructor
    · rintro ⟨-, hpos⟩ ⟨pre, c, post, he, hc, hdepth⟩
      have := hpos pre c post he hc
      omega
    · intro hno
      refine ⟨by simpa using ht.depth_eq hf, fun pre c post he hc => ?_⟩
      by_contra hdepth
      exact hno ⟨pre, c, post, he, hc, by omega⟩
  rw [hblank, ← ht.bare, hbare, Bool.not_eq_true]

end SpatialSql.Sql
