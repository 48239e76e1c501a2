import SpatialSql.Profile.Basic
import SpatialSql.Proofs.Text.Tokens
import Mathlib.Data.List.Forall2
import Mathlib.Data.Nat.Digits.Defs

/-!
# Templates as they are read and filled

The text of a template is a row of marks: characters that stand for themselves, and
placeholders with what is written between their braces. A text has at most one such reading.
It is a template exactly if it has one in which every placeholder holds a star or an index
within reach. Filling a template replaces each mark on its own, so what an operand contains
is never read again.
-/

namespace SpatialSql

/-- What the text of a template is made of. -/
inductive TemplateMark where
  /-- A character that stands for itself. -/
  | char (c : Char)
  /-- A placeholder, with what is written between its braces. -/
  | hole (content : List Char)
  deriving DecidableEq, Repr

namespace TemplateMark

/-- The text of a mark. -/
def written : TemplateMark → List Char
  | char c => [c]
  | hole content => '\x7b' :: (content ++ ['\x7d'])

/-- An opening brace always opens a placeholder, and the first closing brace ends it. -/
def Proper : TemplateMark → Prop
  | char c => c ≠ '\x7b'
  | hole content => '\x7d' ∉ content

end TemplateMark

namespace Template

/-- The text is read as the marks. -/
structure Reads (text : List Char) (marks : List TemplateMark) : Prop where
  written : marks.flatMap TemplateMark.written = text
  proper : ∀ mark ∈ marks, mark.Proper

/-- A numeral for an index: digits after an optional plus sign, for a number below `2 ^ 64`. -/
def IsNumeral (content : List Char) (index : ℕ) : Prop :=
  ∃ digits, (content = digits ∨ content = '+' :: digits) ∧ digits ≠ [] ∧
    (∀ c ∈ digits, c.isDigit = true) ∧
    Nat.ofDigits 10 (digits.reverse.map fun c => c.toNat - '0'.toNat) = index ∧ index < 2 ^ 64

end Template

namespace TemplateMark

open Template

/-- A placeholder holds a star, or an index below the number of operands where that is known. -/
def Fits (arity? : Option ℕ) : TemplateMark → Prop
  | char _ => True
  | hole content => Text.trimmed content = ['*'] ∨
    ∃ index, IsNumeral (Text.trimmed content) index ∧ ∀ arity, arity? = some arity → index < arity

/-- What a mark is replaced by: a character by itself, a star by all operands, an index by the operand
it counts to. -/
inductive Fills (operands : List String) : TemplateMark → String → Prop
  | char (c : Char) : Fills operands (char c) (String.singleton c)
  | all {content : List Char} (h : Text.trimmed content = ['*']) :
    Fills operands (hole content) (String.intercalate ", " operands)
  | one {content : List Char} {index : ℕ} {operand : String}
    (h : IsNumeral (Text.trimmed content) index) (ho : operands[index]? = some operand) :
    Fills operands (hole content) operand

end TemplateMark

namespace Template

open TemplateMark

variable {arity? : Option ℕ} {text before opened content rest : List Char}
  {marks marks' : List TemplateMark} {template : Template} {operands : List String}

/-- The value of digits is their number to the base of ten. -/
theorem digitsValue_eq_ofDigits (digits : List Char) : Decimal.digitsValue digits =
    Nat.ofDigits 10 (digits.reverse.map fun c => c.toNat - '0'.toNat) := by
  rw [Nat.ofDigits_eq_foldr, List.foldr_map, List.foldr_reverse, Decimal.digitsValue]
  congr 1
  funext value c
  exact Nat.add_comm _ _

/-- An index is read exactly from its numerals. -/
theorem index?_eq_some_iff {index : ℕ} : index? content = some index ↔ IsNumeral content index := by
  have hdigits (digits : List Char) :
      (if digits ≠ [] ∧ digits.all Char.isDigit then
        if Decimal.digitsValue digits < Nat.pow 2 64 then some (Decimal.digitsValue digits) else none
      else none) = some index ↔
      digits ≠ [] ∧ (∀ c ∈ digits, c.isDigit = true) ∧
        Nat.ofDigits 10 (digits.reverse.map fun c => c.toNat - '0'.toNat) = index ∧
        index < 2 ^ 64 := by
    rw [← digitsValue_eq_ofDigits, ← List.all_eq_true]
    constructor
    · intro h
      split at h
      · next hd =>
        split at h
        · next hlt =>
          cases h
          exact ⟨hd.1, hd.2, rfl, hlt⟩
        · contradiction
      · contradiction
    · rintro ⟨hne, hd, rfl, hlt⟩
      rw [if_pos ⟨hne, hd⟩]
      exact if_pos hlt
  unfold index?
  dsimp only
  rw [hdigits]
  split
  · next digits =>
    constructor
    · intro h
      exact ⟨digits, Or.inr rfl, h⟩
    · rintro ⟨digits', hplus | hplus, hne, hd, hindex⟩
      · have hsign := hd '+' (hplus ▸ List.mem_cons_self)
        contradiction
      · cases hplus
        exact ⟨hne, hd, hindex⟩
  · next hplus =>
    constructor
    · intro h
      exact ⟨content, Or.inl rfl, h⟩
    · rintro ⟨digits, rfl | rfl, h⟩
      · exact h
      · exact absurd rfl (hplus digits)

/-- A numeral denotes one index. -/
theorem IsNumeral.unique {index index' : ℕ} (h : IsNumeral content index)
    (h' : IsNumeral content index') : index = index' := by
  rw [← index?_eq_some_iff] at h h'
  exact Option.some.inj (h.symm.trans h')

/-- The mark for all operands is no numeral. -/
theorem not_isNumeral_star (index : ℕ) : ¬ IsNumeral ['*'] index := by
  rw [← index?_eq_some_iff]
  intro h
  cases h

/-- A text without an opening brace holds no placeholder. -/
theorem reads_chars (h : '\x7b' ∉ text) : Reads text (text.map .char) where
  written := by
    rw [List.flatMap_map]
    exact List.flatMap_singleton' text
  proper mark hmark := by
    obtain ⟨c, hc, rfl⟩ := List.mem_map.mp hmark
    exact ne_of_mem_of_not_mem hc h

/-- A placeholder may stand behind characters and in front of anything. -/
theorem Reads.hole (h : Reads rest marks) (hb : '\x7b' ∉ before) (hc : '\x7d' ∉ content) :
    Reads (before ++ '\x7b' :: (content ++ '\x7d' :: rest))
      (before.map .char ++ .hole content :: marks) where
  written := by
    rw [List.flatMap_append, (reads_chars hb).written, List.flatMap_cons, h.written]
    simp [TemplateMark.written]
  proper mark hmark := by
    rcases List.mem_append.mp hmark with hmark | hmark
    · exact (reads_chars hb).proper mark hmark
    · rcases List.mem_cons.mp hmark with rfl | hmark
      · exact hc
      · exact h.proper mark hmark

/-- A text without an opening brace is read as it stands. -/
theorem Reads.eq_chars (h : Reads text marks) (ht : '\x7b' ∉ text) : marks = text.map .char := by
  obtain ⟨rfl, hproper⟩ := h
  induction marks with
  | nil => rfl
  | cons mark marks ih =>
    cases mark with
    | char c =>
      have hmarks := ih (fun mark hmark => hproper mark (List.mem_cons_of_mem _ hmark))
        (fun hmem => ht (List.mem_cons_of_mem c hmem))
      exact congrArg (TemplateMark.char c :: ·) hmarks
    | hole content => exact absurd List.mem_cons_self ht

/-- The first opening brace of a text opens a placeholder, which the next closing brace ends. -/
theorem Reads.exists_hole (h : Reads (before ++ '\x7b' :: opened) marks) (hb : '\x7b' ∉ before) :
    ∃ content rest marks', opened = content ++ '\x7d' :: rest ∧ '\x7d' ∉ content ∧
      Reads rest marks' ∧ marks = before.map .char ++ .hole content :: marks' := by
  induction before generalizing marks with
  | nil =>
    obtain ⟨hwritten, hproper⟩ := h
    cases marks with
    | nil => cases hwritten
    | cons mark marks =>
      obtain ⟨hmark, hmarks⟩ := List.forall_mem_cons.mp hproper
      cases mark with
      | char c => exact absurd (List.cons_eq_cons.mp hwritten).1 hmark
      | hole content =>
        have hopened : content ++ ['\x7d'] ++ marks.flatMap TemplateMark.written = opened :=
          (List.cons_eq_cons.mp hwritten).2
        rw [List.append_assoc, List.singleton_append] at hopened
        exact ⟨content, _, marks, hopened.symm, hmark, ⟨rfl, hmarks⟩, rfl⟩
  | cons c before ih =>
    obtain ⟨hwritten, hproper⟩ := h
    obtain ⟨hc, hbefore⟩ := not_or.mp (mt List.mem_cons.mpr hb)
    cases marks with
    | nil => cases hwritten
    | cons mark marks =>
      obtain ⟨hmark, hmarks⟩ := List.forall_mem_cons.mp hproper
      cases mark with
      | char d =>
        obtain ⟨rfl, htail⟩ := List.cons_eq_cons.mp hwritten
        obtain ⟨content, rest, marks', hopened, hcontent, hrest, rfl⟩ := ih ⟨htail, hmarks⟩ hbefore
        exact ⟨content, rest, marks', hopened, hcontent, hrest, rfl⟩
      | hole content => exact absurd (List.cons_eq_cons.mp hwritten).1 hc

/-- A text has one reading at most. -/
theorem Reads.unique (h : Reads text marks) (h' : Reads text marks') : marks = marks' := by
  induction hn : text.length using Nat.strongRecOn generalizing text marks marks' with
  | ind n ih =>
    by_cases hopen : '\x7b' ∈ text
    · obtain ⟨before, opened, rfl, hb⟩ := List.eq_append_cons_of_mem hopen
      obtain ⟨content, rest, inner, rfl, hc, hrest, rfl⟩ := h.exists_hole hb
      obtain ⟨content', rest', inner', heq, hc', hrest', rfl⟩ := h'.exists_hole hb
      have hcut := congrArg (Text.cut? ['\x7d']) heq
      rw [Text.cut?_append_cons hc, Text.cut?_append_cons hc'] at hcut
      obtain ⟨rfl, rfl⟩ := Prod.mk.inj (Option.some.inj hcut)
      have hlt : rest.length < n := by
        rw [← hn]
        simp only [List.length_append, List.length_cons]
        omega
      rw [ih _ hlt hrest hrest' rfl]
    · rw [h.eq_chars hopen, h'.eq_chars hopen]

/-- A numeral is an index unless it is known to be beyond the operands. -/
theorem placeholder_of_numeral {index : ℕ} (h : IsNumeral content index) {piece : TemplatePiece} :
    placeholder arity? content = .ok piece ↔
      (∀ arity, arity? = some arity → index < arity) ∧ piece = .operand index := by
  have hstar : content ≠ ['*'] := by
    rintro rfl
    exact not_isNumeral_star index h
  rw [placeholder, if_neg hstar, index?_eq_some_iff.mpr h]
  cases arity? with
  | none => simp [eq_comm]
  | some arity => by_cases hlt : index < arity <;> simp [hlt, eq_comm]

/-- A placeholder is a star, or a numeral below the arity where one is fixed. -/
theorem placeholder_eq_ok_iff {piece : TemplatePiece} : placeholder arity? content = .ok piece ↔
    (content = ['*'] ∧ piece = .operands) ∨
      ∃ index, IsNumeral content index ∧ (∀ arity, arity? = some arity → index < arity) ∧
        piece = .operand index := by
  by_cases hstar : content = ['*']
  · subst hstar
    have hok : placeholder arity? ['*'] = .ok .operands := if_pos rfl
    simp [hok, not_isNumeral_star, eq_comm]
  · cases hindex : index? content with
    | none =>
      have hnumeral (index : ℕ) : ¬ IsNumeral content index := by
        rw [← index?_eq_some_iff, hindex]
        exact (Option.some_ne_none index).symm
      simp [placeholder, hstar, hindex, hnumeral]
    | some index =>
      have hnumeral := index?_eq_some_iff.mp hindex
      rw [placeholder_of_numeral hnumeral]
      constructor
      · intro h
        exact Or.inr ⟨index, hnumeral, h⟩
      · rintro (⟨h, -⟩ | ⟨index', h, hpiece⟩)
        · exact absurd h hstar
        · rwa [hnumeral.unique h]

/-- A text without an opening brace is parsed as it stands. -/
theorem parse_chars (h : '\x7b' ∉ text) : parse arity? text = .ok [.text text] := by
  rw [parse]
  split
  · rfl
  · next before opened hcut =>
    rw [Text.cut?_mark_eq_none_iff.mpr h] at hcut
    contradiction

/-- A brace that is not closed is an error. -/
theorem parse_unclosed (hb : '\x7b' ∉ before) (ho : '\x7d' ∉ opened) :
    parse arity? (before ++ '\x7b' :: opened) = .error .unclosed := by
  have hopen := Text.cut?_append_cons hb opened
  rw [parse]
  split
  · next hcut =>
    rw [hopen] at hcut
    contradiction
  · next before' opened' hcut =>
    rw [hopen] at hcut
    cases hcut
    split
    · rfl
    · next content rest hclose =>
      rw [Text.cut?_mark_eq_none_iff.mpr ho] at hclose
      contradiction

/-- The first hole is parsed, then what follows its closing brace. -/
theorem parse_hole (hb : '\x7b' ∉ before) (hc : '\x7d' ∉ content) :
    parse arity? (before ++ '\x7b' :: (content ++ '\x7d' :: rest)) =
      (placeholder arity? (Text.trimmed content)).bind fun piece =>
        (parse arity? rest).map fun template => .text before :: piece :: template := by
  have hopen := Text.cut?_append_cons hb (content ++ '\x7d' :: rest)
  have hclose := Text.cut?_append_cons hc rest
  rw [parse]
  split
  · next hcut =>
    rw [hopen] at hcut
    contradiction
  · next before' opened hcut =>
    rw [hopen] at hcut
    cases hcut
    split
    · next hcut =>
      rw [hclose] at hcut
      contradiction
    · next content' rest' hcut =>
      rw [hclose] at hcut
      cases hcut
      rfl

/-- The template puts the marks together: the characters in front of a placeholder are one piece. -/
inductive Spells (arity? : Option ℕ) : List TemplateMark → Template → Prop
  | chars (cs : List Char) : Spells arity? (cs.map .char) [.text cs]
  | hole (cs : List Char) {content : List Char} {piece : TemplatePiece} {marks : List TemplateMark}
    {template : Template} (hp : placeholder arity? (Text.trimmed content) = .ok piece)
    (h : Spells arity? marks template) :
    Spells arity? (cs.map .char ++ .hole content :: marks) (.text cs :: piece :: template)

/-- A hole fits exactly if its content is a placeholder. -/
theorem fits_hole_iff : (TemplateMark.hole content).Fits arity? ↔
    ∃ piece, placeholder arity? (Text.trimmed content) = .ok piece := by
  simp only [placeholder_eq_ok_iff]
  constructor
  · rintro (h | ⟨index, h, hlt⟩)
    · exact ⟨_, Or.inl ⟨h, rfl⟩⟩
    · exact ⟨_, Or.inr ⟨index, h, hlt, rfl⟩⟩
  · rintro ⟨piece, ⟨h, -⟩ | ⟨index, h, hlt, -⟩⟩
    · exact Or.inl h
    · exact Or.inr ⟨index, h, hlt⟩

/-- Characters always fit. -/
theorem fits_chars (cs : List Char) : ∀ mark ∈ cs.map TemplateMark.char, mark.Fits arity? := by
  intro mark hmark
  obtain ⟨c, -, rfl⟩ := List.mem_map.mp hmark
  trivial

/-- The marks that a template spells fit. -/
theorem Spells.fits (h : Spells arity? marks template) : ∀ mark ∈ marks, mark.Fits arity? := by
  induction h with
  | chars cs => exact fits_chars cs
  | hole cs hp h ih =>
    exact List.forall_mem_append.mpr
      ⟨fits_chars cs, List.forall_mem_cons.mpr ⟨fits_hole_iff.mpr ⟨_, hp⟩, ih⟩⟩

/-- The text has a reading in which every placeholder fits. -/
def Accepts (arity? : Option ℕ) (text : List Char) : Prop :=
  ∃ marks, Reads text marks ∧ ∀ mark ∈ marks, mark.Fits arity?

/-- What follows a placeholder is shorter than the text. -/
theorem length_rest_lt (before content rest : List Char) :
    rest.length < (before ++ '\x7b' :: (content ++ '\x7d' :: rest)).length := by
  simp only [List.length_append, List.length_cons]
  omega

/-- A text that is a template has a reading that the template spells. -/
theorem exists_spells_of_parse (h : parse arity? text = .ok template) :
    ∃ marks, Reads text marks ∧ Spells arity? marks template := by
  induction hn : text.length using Nat.strongRecOn generalizing text template with
  | ind n ih =>
    by_cases hopen : '\x7b' ∈ text
    · obtain ⟨before, opened, rfl, hb⟩ := List.eq_append_cons_of_mem hopen
      by_cases hclose : '\x7d' ∈ opened
      · obtain ⟨content, rest, rfl, hc⟩ := List.eq_append_cons_of_mem hclose
        rw [parse_hole hb hc] at h
        cases hp : placeholder arity? (Text.trimmed content) with
        | error fault =>
          rw [hp] at h
          contradiction
        | ok piece =>
          cases hr : parse arity? rest with
          | error fault =>
            rw [hp, hr] at h
            contradiction
          | ok pieces =>
            rw [hp, hr] at h
            cases h
            obtain ⟨marks, hreads, hspells⟩ := ih _ (hn ▸ length_rest_lt before content rest) hr rfl
            exact ⟨_, hreads.hole hb hc, .hole before hp hspells⟩
      · rw [parse_unclosed hb hclose] at h
        contradiction
    · rw [parse_chars hopen] at h
      cases h
      exact ⟨_, reads_chars hopen, .chars text⟩

/-- A text whose placeholders all fit is a template. -/
theorem exists_parse_of_reads (h : Reads text marks) (hf : ∀ mark ∈ marks, mark.Fits arity?) :
    ∃ template, parse arity? text = .ok template := by
  induction hn : text.length using Nat.strongRecOn generalizing text marks with
  | ind n ih =>
    by_cases hopen : '\x7b' ∈ text
    · obtain ⟨before, opened, rfl, hb⟩ := List.eq_append_cons_of_mem hopen
      obtain ⟨content, rest, marks', rfl, hc, hrest, rfl⟩ := h.exists_hole hb
      obtain ⟨hhole, hmarks⟩ := List.forall_mem_cons.mp (List.forall_mem_append.mp hf).2
      obtain ⟨piece, hp⟩ := fits_hole_iff.mp hhole
      obtain ⟨template, ht⟩ := ih _ (hn ▸ length_rest_lt before content rest) hrest hmarks rfl
      rw [parse_hole hb hc, hp, ht]
      exact ⟨_, rfl⟩
    · exact ⟨_, parse_chars hopen⟩

/-- A fixed text is written as it is. -/
theorem render_text (cs : List Char) : render operands (.text cs :: template) =
    (render operands template).map (String.ofList cs ++ ·) := by
  rw [render]
  cases render operands template <;> rfl

/-- All operands are written with commas between them. -/
theorem render_operands : render operands (.operands :: template) =
    (render operands template).map (String.intercalate ", " operands ++ ·) := by
  rw [render]
  cases render operands template <;> rfl

/-- One operand is written, if there is one at the index. -/
theorem render_operand (index : ℕ) : render operands (.operand index :: template) =
    operands[index]?.bind fun operand => (render operands template).map (operand ++ ·) := by
  rw [render]
  cases operands[index]? with
  | none => rfl
  | some operand => cases render operands template <;> rfl

/-- A placeholder is replaced, or it asks for an operand that is not there. -/
theorem render_hole_cases {piece : TemplatePiece}
    (hp : placeholder arity? (Text.trimmed content) = .ok piece) (operands : List String)
    (template : Template) :
    (∃ part, (TemplateMark.hole content).Fills operands part ∧
      render operands (piece :: template) = (render operands template).map (part ++ ·)) ∨
    (render operands (piece :: template) = none ∧
      ∃ index, IsNumeral (Text.trimmed content) index ∧ operands.length ≤ index) := by
  rcases placeholder_eq_ok_iff.mp hp with ⟨hstar, rfl⟩ | ⟨index, hindex, -, rfl⟩
  · exact Or.inl ⟨_, .all hstar, render_operands⟩
  · cases ho : operands[index]? with
    | none =>
      refine Or.inr ⟨?_, index, hindex, List.getElem?_eq_none_iff.mp ho⟩
      rw [render_operand, ho, Option.bind_none]
    | some operand =>
      refine Or.inl ⟨operand, .one hindex ho, ?_⟩
      rw [render_operand, ho, Option.bind_some]

/-- The text asks for an operand that is not there. -/
def AsksBeyond (operands : List String) (marks : List TemplateMark) : Prop :=
  ∃ content index, TemplateMark.hole content ∈ marks ∧ IsNumeral (Text.trimmed content) index ∧
    operands.length ≤ index

/-- The text is put together from what replaces the marks, one by one. -/
def Filled (operands : List String) (marks : List TemplateMark) (sql : String) : Prop :=
  ∃ parts, List.Forall₂ (Fills operands) marks parts ∧ String.join parts = sql

/-- A mark is filled in front of the others. -/
theorem Filled.cons {mark : TemplateMark} {part sql : String} (hm : mark.Fills operands part)
    (h : Filled operands marks sql) : Filled operands (mark :: marks) (part ++ sql) := by
  obtain ⟨parts, hparts, rfl⟩ := h
  exact ⟨part :: parts, .cons hm hparts, String.join_cons⟩

/-- Characters are filled with themselves. -/
theorem Filled.chars {sql : String} (h : Filled operands marks sql) (cs : List Char) :
    Filled operands (cs.map .char ++ marks) (String.ofList cs ++ sql) := by
  induction cs with
  | nil => simpa using h
  | cons c cs ih => simpa [String.append_assoc] using ih.cons (.char c)

/-- A template is filled mark by mark, unless it asks for an operand that is not there. -/
theorem Spells.render_cases (h : Spells arity? marks template) (operands : List String) :
    (∃ sql, template.render operands = some sql ∧ Filled operands marks sql) ∨
      (template.render operands = none ∧ AsksBeyond operands marks) := by
  induction h with
  | chars cs =>
    have hfilled : Filled operands [] "" := ⟨[], .nil, rfl⟩
    have hchars := hfilled.chars cs
    rw [List.append_nil] at hchars
    exact Or.inl ⟨_, render_text cs, hchars⟩
  | @hole cs content piece marks template hp h ih =>
    rw [render_text]
    rcases render_hole_cases hp operands template with
      ⟨part, hpart, hrender⟩ | ⟨hrender, index, hindex, hbeyond⟩
    · rw [hrender]
      rcases ih with ⟨sql, hsql, hfilled⟩ | ⟨hnone, content', index, hmem, hbeyond⟩
      · rw [hsql]
        exact Or.inl ⟨_, rfl, (hfilled.cons hpart).chars cs⟩
      · rw [hnone]
        exact Or.inr ⟨rfl, content', index, by simp [hmem], hbeyond⟩
    · rw [hrender]
      exact Or.inr ⟨rfl, content, index, by simp, hindex, hbeyond⟩

/-- A mark is filled in one way. -/
theorem Fills.unique {mark : TemplateMark} {part part' : String} (h : mark.Fills operands part)
    (h' : mark.Fills operands part') : part = part' := by
  cases h with
  | char c =>
    cases h'
    rfl
  | all hstar =>
    cases h' with
    | all _ => rfl
    | one hindex _ => exact absurd (hstar ▸ hindex) (not_isNumeral_star _)
  | one hindex ho =>
    cases h' with
    | all hstar => exact absurd (hstar ▸ hindex) (not_isNumeral_star _)
    | one hindex' ho' =>
      rw [hindex.unique hindex'] at ho
      exact Option.some.inj (ho.symm.trans ho')

/-- Marks are filled in one way. -/
theorem Filled.unique {sql sql' : String} (h : Filled operands marks sql)
    (h' : Filled operands marks sql') : sql = sql' := by
  obtain ⟨parts, hparts, rfl⟩ := h
  obtain ⟨parts', hparts', rfl⟩ := h'
  induction hparts generalizing parts' with
  | nil =>
    cases hparts'
    rfl
  | cons hm hrest ih =>
    cases hparts' with
    | cons hm' hrest' => rw [Fills.unique hm hm', String.join_cons, String.join_cons, ih _ hrest']

/-- What asks for an operand that is not there cannot be filled. -/
theorem Filled.not_asksBeyond {sql : String} (h : Filled operands marks sql) :
    ¬ AsksBeyond operands marks := by
  obtain ⟨parts, hparts, -⟩ := h
  rintro ⟨content, index, hmem, hindex, hbeyond⟩
  induction hparts with
  | nil => cases hmem
  | cons hm hrest ih =>
    rcases List.mem_cons.mp hmem with rfl | hmem
    · cases hm with
      | all hstar => exact not_isNumeral_star index (hstar ▸ hindex)
      | one hindex' ho =>
        rw [hindex'.unique hindex, List.getElem?_eq_none hbeyond] at ho
        contradiction
    · exact ih hmem

/-- A fault of a template is reported under the key of its entry. -/
theorem entry_of_fault {key text : String} {operation : Operation} {fault : TemplateFault}
    (hk : Operation.ofKey? key = some operation) (hd : Text.trim text ≠ "decline")
    (h : parse operation.2.arity? text.toList = .error fault) :
    Profile.entry key text = .error (.invalidProfile ("'" ++ key ++ "': " ++ fault.reason)) := by
  simp only [Profile.entry, hk, Lowering.parse, if_neg hd, h]
  rfl

/-- A text is a template exactly if it has a reading in which every placeholder fits. Any other text
has a fault, and the entry of a profile that holds it is invalid and says so under its key. A template
comes to nothing exactly if it asks for an operand that is not there. Otherwise it comes to the text in
which every mark of the one reading is replaced, all at once; this is always so for as many operands as
the template was read for. -/
theorem parsed_and_filled (arity? : Option ℕ) (text : String) :
    ((∃ template, parse arity? text.toList = .ok template) ↔ Accepts arity? text.toList) ∧
    (¬ Accepts arity? text.toList → ∃ fault, parse arity? text.toList = .error fault ∧
      ∀ key operation, Operation.ofKey? key = some operation → operation.2.arity? = arity? →
        Text.trim text ≠ "decline" →
        Profile.entry key text = .error (.invalidProfile ("'" ++ key ++ "': " ++ fault.reason))) ∧
    ∀ template marks, parse arity? text.toList = .ok template → Reads text.toList marks →
      ∀ operands,
        (template.render operands = none ↔ AsksBeyond operands marks) ∧
        (∀ sql, template.render operands = some sql ↔ Filled operands marks sql) ∧
        (arity? = some operands.length → ∃ sql, template.render operands = some sql) := by
  have haccepts : (∃ template, parse arity? text.toList = .ok template) ↔
      Accepts arity? text.toList := by
    constructor
    · rintro ⟨template, h⟩
      obtain ⟨marks, hreads, hspells⟩ := exists_spells_of_parse h
      exact ⟨marks, hreads, hspells.fits⟩
    · rintro ⟨marks, hreads, hfits⟩
      exact exists_parse_of_reads hreads hfits
  refine ⟨haccepts, fun hnot => ?_, fun template marks h hreads operands => ?_⟩
  · cases h : parse arity? text.toList with
    | ok template => exact absurd (haccepts.mp ⟨template, h⟩) hnot
    | error fault =>
      refine ⟨fault, rfl, fun key operation hk harity hd => ?_⟩
      exact entry_of_fault hk hd (harity ▸ h)
  · obtain ⟨marks', hreads', hspells⟩ := exists_spells_of_parse h
    obtain rfl := hreads.unique hreads'
    have hcases := hspells.render_cases operands
    have hnone : template.render operands = none ↔ AsksBeyond operands marks := by
      rcases hcases with ⟨sql, hsql, hfilled⟩ | ⟨hnone, hbeyond⟩
      · rw [hsql]
        exact iff_of_false (Option.some_ne_none sql) hfilled.not_asksBeyond
      · exact iff_of_true hnone hbeyond
    have hsome (sql : String) : template.render operands = some sql ↔ Filled operands marks sql := by
      rcases hcases with ⟨sql', hsql, hfilled⟩ | ⟨hnone, hbeyond⟩
      · rw [hsql, Option.some.injEq]
        exact ⟨fun heq => heq ▸ hfilled, hfilled.unique⟩
      · rw [hnone]
        exact iff_of_false (Option.some_ne_none sql).symm fun hfilled => hfilled.not_asksBeyond hbeyond
    refine ⟨hnone, hsome, fun harity => ?_⟩
    rcases hcases with ⟨sql, hsql, -⟩ | ⟨-, content, index, hmem, hindex, hbeyond⟩
    · exact ⟨sql, hsql⟩
    · rcases hspells.fits _ hmem with hstar | ⟨index', hindex', hlt⟩
      · exact absurd (hstar ▸ hindex) (not_isNumeral_star index)
      · have hreach := hlt _ harity
        rw [hindex'.unique hindex] at hreach
        exact absurd hbeyond (not_le.mpr hreach)

/-- A call with an index between blanks, all operands, and a brace that closes nothing. -/
def framedCall : String := "F(\x7b 1 \x7d, \x7b*\x7d)\x7d"

/-- The marks of `framedCall`. -/
def framedMarks : List TemplateMark :=
  ['F', '('].map .char ++ .hole [' ', '1', ' '] ::
    ([',', ' '].map .char ++ .hole ['*'] :: [')', '\x7d'].map .char)

/-- An operand that looks like a placeholder is put in as it is, and one operand alone is not enough. -/
theorem parsed_and_filled_framedCall :
    Reads framedCall.toList framedMarks ∧ ∃ template,
      parse (some 2) framedCall.toList = .ok template ∧
      template.render ["a", "\x7b0\x7d"] = some "F(\x7b0\x7d, a, \x7b0\x7d)\x7d" ∧
      template.render ["a"] = none := by
  have hreads : Reads framedCall.toList framedMarks := by
    have hend : Reads [')', '\x7d'] ([')', '\x7d'].map .char) := reads_chars (by decide)
    have hstar : Reads ([',', ' '] ++ '\x7b' :: (['*'] ++ '\x7d' :: [')', '\x7d'])) _ :=
      hend.hole (by decide) (by decide)
    have hindex : Reads (['F', '('] ++ '\x7b' :: ([' ', '1', ' '] ++ '\x7d' :: _)) _ :=
      hstar.hole (by decide) (by decide)
    exact hindex
  have hone : IsNumeral (Text.trimmed [' ', '1', ' ']) 1 := index?_eq_some_iff.mp rfl
  have hall : Text.trimmed ['*'] = ['*'] := rfl
  have hfits : ∀ mark ∈ framedMarks, mark.Fits (some 2) := by
    have hindex : (TemplateMark.hole [' ', '1', ' ']).Fits (some 2) :=
      Or.inr ⟨1, hone, fun arity h => Option.some.inj h ▸ one_lt_two⟩
    have hstar : (TemplateMark.hole ['*']).Fits (some 2) := Or.inl hall
    rw [framedMarks, List.forall_mem_append, List.forall_mem_cons, List.forall_mem_append,
      List.forall_mem_cons]
    exact ⟨fits_chars _, hindex, fits_chars _, hstar, fits_chars _⟩
  obtain ⟨haccepts, -, hrender⟩ := parsed_and_filled (some 2) framedCall
  obtain ⟨template, htemplate⟩ := haccepts.mpr ⟨framedMarks, hreads, hfits⟩
  refine ⟨hreads, template, htemplate, ?_, ?_⟩
  · have hempty : Filled ["a", "\x7b0\x7d"] [] "" := ⟨[], .nil, rfl⟩
    have hend := (hempty.chars [')', '\x7d']).cons (.all hall)
    have hfilled := ((hend.chars [',', ' ']).cons (.one hone rfl)).chars ['F', '(']
    exact ((hrender template framedMarks htemplate hreads _).2.1 _).mpr hfilled
  · refine (hrender template framedMarks htemplate hreads _).1.mpr ?_
    exact ⟨_, 1, by simp [framedMarks], hone, le_rfl⟩

end Template

end SpatialSql
