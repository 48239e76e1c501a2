import SpatialSql.Expr.Text
import Mathlib.Data.List.Chain
import Mathlib.Logic.Relation

/-!
# Concatenations in normal form

Two literal texts that stand next to each other can be joined. Merging parts takes steps of this
kind until none is left, and no step changes what merging comes to, so it does not matter in which
order, or in how many portions, the steps are taken. A concatenation takes its operands apart, one
level deep, and merges their parts. As long as the operands are themselves in normal form, one level
is all there is: the outcome is in normal form again, and grouping operands makes no difference.
-/

namespace SpatialSql.Expr

variable {α : Type}

/-- Two literal texts that stand next to each other become one. -/
inductive JoinStep : List (Expr α) → List (Expr α) → Prop
  | join (front : List (Expr α)) (s t : String) (back : List (Expr α)) :
      JoinStep (front ++ text s :: text t :: back) (front ++ text (s ++ t) :: back)

/-- One list of parts comes from another by joining neighbours, any number of times. -/
def Joins : List (Expr α) → List (Expr α) → Prop := Relation.ReflTransGen JoinStep

variable {part : Expr α} {parts parts' : List (Expr α)}

/-- A step takes place anywhere in a list. -/
theorem JoinStep.append (h : JoinStep parts parts') (front back : List (Expr α)) :
    JoinStep (front ++ parts ++ back) (front ++ parts' ++ back) := by
  obtain ⟨front', s, t, back'⟩ := h
  simpa using JoinStep.join (front ++ front') s t (back' ++ back)

/-- So does a sequence of steps. -/
theorem Joins.append (h : Joins parts parts') (front back : List (Expr α)) :
    Joins (front ++ parts ++ back) (front ++ parts' ++ back) :=
  Relation.ReflTransGen.lift (fun parts => front ++ parts ++ back)
    (fun _ _ h => h.append front back) _ _ h

/-- A part is either joined with a literal text behind it or put in front of what is there, and then
not both are literal texts. -/
theorem consPart_cases (part : Expr α) (parts : List (Expr α)) :
    (∃ s t rest, part = text s ∧ parts = text t :: rest ∧
      consPart part parts = text (s ++ t) :: rest) ∨
    (consPart part parts = part :: parts ∧
      ∀ next ∈ parts.head?, ¬ (part.text?.isSome ∧ next.text?.isSome)) := by
  unfold consPart
  split
  · next s t rest => exact .inl ⟨s, t, rest, rfl, rfl, rfl⟩
  · next hno =>
    refine .inr ⟨rfl, ?_⟩
    rintro next hnext ⟨hpart, htext⟩
    obtain ⟨rest, rfl⟩ := List.head?_eq_some_iff.mp hnext
    unfold text? at hpart htext
    split at hpart
    · split at htext
      · exact hno _ _ _ rfl rfl
      · cases htext
    · cases hpart

theorem mergeParts_cons (part : Expr α) (parts : List (Expr α)) :
    mergeParts (part :: parts) = consPart part (mergeParts parts) := rfl

/-- Merging goes from the back to the front. -/
theorem mergeParts_append (front parts : List (Expr α)) :
    mergeParts (front ++ parts) = front.foldr consPart (mergeParts parts) :=
  List.foldr_append

/-- Merging takes steps that join neighbours. -/
theorem joins_mergeParts (parts : List (Expr α)) : Joins parts (mergeParts parts) := by
  induction parts with
  | nil => exact .refl
  | cons part rest ih =>
    have hrest : Joins (part :: rest) (part :: mergeParts rest) := by
      simpa using ih.append [part] []
    rw [mergeParts_cons]
    rcases consPart_cases part (mergeParts rest) with ⟨s, t, others, rfl, hmerged, hcons⟩ | ⟨hcons, -⟩
    · rw [hcons]
      rw [hmerged] at hrest
      exact hrest.tail (.join [] s t others)
    · rwa [hcons]

/-- It makes no difference to what follows whether two texts are joined first. -/
theorem consPart_text_consPart (s t : String) (parts : List (Expr α)) :
    consPart (text s) (consPart (text t) parts) = consPart (text (s ++ t)) parts := by
  have htext (s : String) : (text s : Expr α).text?.isSome = true := rfl
  rcases consPart_cases (text t) parts with ⟨_, u, rest, ht, rfl, hcons⟩ | ⟨hcons, hapart⟩
  · cases ht
    rw [hcons]
    change text (s ++ (t ++ u)) :: rest = text (s ++ t ++ u) :: rest
    rw [String.append_assoc]
  · rcases consPart_cases (text (s ++ t)) parts with ⟨_, u, rest, -, rfl, -⟩ | ⟨hcons', -⟩
    · exact absurd ⟨htext t, htext u⟩ (hapart _ rfl)
    · rw [hcons, hcons']
      rfl

/-- A step does not change what merging comes to. -/
theorem JoinStep.mergeParts_eq (h : JoinStep parts parts') : mergeParts parts = mergeParts parts' := by
  obtain ⟨front, s, t, back⟩ := h
  rw [mergeParts_append, mergeParts_append, mergeParts_cons, mergeParts_cons, mergeParts_cons,
    consPart_text_consPart]

/-- Joining neighbours does not change what merging gives. -/
theorem Joins.mergeParts_eq (h : Joins parts parts') : mergeParts parts = mergeParts parts' := by
  induction h with
  | refl => rfl
  | tail _ hstep ih => exact ih.trans hstep.mergeParts_eq

/-- Parts may be merged in portions. -/
theorem mergeParts_append_mergeParts (front parts back : List (Expr α)) :
    mergeParts (front ++ mergeParts parts ++ back) = mergeParts (front ++ parts ++ back) :=
  ((joins_mergeParts parts).append front back).mergeParts_eq.symm

/-- The expression is a concatenation. -/
def isConcat : Expr α → Bool
  | node (.scalar .concat) _ _ _ _ => true
  | _ => false

/-- Parts with nothing left to take apart or to join: no concatenation, and no two literal texts
next to each other. -/
structure Merged (parts : List (Expr α)) : Prop where
  plain : ∀ p ∈ parts, p.isConcat = false
  apart : parts.IsChain fun p q => ¬ (p.text?.isSome ∧ q.text?.isSome)

instance (parts : List (Expr α)) : Decidable (Merged parts) :=
  decidable_of_iff ((∀ p ∈ parts, p.isConcat = false) ∧
      parts.IsChain fun p q => ¬ (p.text?.isSome ∧ q.text?.isSome))
    ⟨fun h => ⟨h.1, h.2⟩, fun h => ⟨h.plain, h.apart⟩⟩

/-- If the expression is a concatenation, it has two operands or more, and they are merged. -/
def NormalConcat (e : Expr α) : Prop :=
  e.isConcat = true → 2 ≤ e.operands.length ∧ Merged e.operands

instance (e : Expr α) : Decidable e.NormalConcat :=
  inferInstanceAs (Decidable (e.isConcat = true → 2 ≤ e.operands.length ∧ Merged e.operands))

/-- Only concatenations are opened up. -/
theorem concatParts_eq (e : Expr α) : e.concatParts = if e.isConcat then e.operands else [e] := by
  unfold concatParts
  split
  · rfl
  · next hno =>
    have hplain : e.isConcat = false := by
      unfold isConcat
      split
      · exact absurd rfl (hno _ _ _ _)
      · rfl
    rw [hplain]
    rfl

theorem concatParts_of_plain {e : Expr α} (h : e.isConcat = false) : e.concatParts = [e] := by
  rw [concatParts_eq, h]
  rfl

namespace NormalConcat

variable {e : Expr α}

/-- The parts of a normal concatenation are no concatenations themselves. -/
theorem plain_of_mem_concatParts (h : e.NormalConcat) : ∀ p ∈ e.concatParts, p.isConcat = false := by
  rw [concatParts_eq]
  split
  · next hconcat => exact (h hconcat).2.plain
  · next hconcat =>
    intro p hp
    rw [List.mem_singleton.mp hp]
    exact eq_false_of_ne_true hconcat

/-- A normal text brings at least one part. -/
theorem concatParts_ne_nil (h : e.NormalConcat) : e.concatParts ≠ [] := by
  rw [concatParts_eq]
  split
  · next hconcat => exact List.length_pos_iff.mp (Nat.lt_of_lt_of_le Nat.two_pos (h hconcat).1)
  · exact List.cons_ne_nil e []

/-- Only a part that is no concatenation brings a single part, itself. -/
theorem eq_of_concatParts_eq_singleton (h : e.NormalConcat) (hparts : e.concatParts = [part]) :
    e = part := by
  rw [concatParts_eq] at hparts
  split at hparts
  · next hconcat =>
    have htwo := (h hconcat).1
    rw [hparts] at htwo
    exact absurd htwo (Nat.not_succ_le_self 1)
  · exact List.head_eq_of_cons_eq hparts

end NormalConcat

/-- A part that is no concatenation keeps merged parts merged. -/
theorem Merged.consPart (h : Merged parts) (hpart : part.isConcat = false) :
    Merged (consPart part parts) := by
  rcases consPart_cases part parts with ⟨s, t, rest, rfl, rfl, hcons⟩ | ⟨hcons, hapart⟩
  · rw [hcons]
    obtain ⟨hnext, hrest⟩ := List.isChain_cons.mp h.apart
    refine ⟨?_, List.isChain_cons.mpr ⟨hnext, hrest⟩⟩
    rintro p (_ | ⟨_, hp⟩)
    · rfl
    · exact h.plain p (List.mem_cons_of_mem _ hp)
  · rw [hcons]
    exact ⟨List.forall_mem_cons.mpr ⟨hpart, h.plain⟩, List.isChain_cons.mpr ⟨hapart, h.apart⟩⟩

/-- After merging no two literals are neighbours. -/
theorem merged_mergeParts (h : ∀ p ∈ parts, p.isConcat = false) : Merged (mergeParts parts) := by
  induction parts with
  | nil => exact ⟨fun _ hp => absurd hp List.not_mem_nil, .nil⟩
  | cons part rest ih =>
    obtain ⟨hpart, hrest⟩ := List.forall_mem_cons.mp h
    exact (ih hrest).consPart hpart

/-- Merging never removes all parts. -/
theorem mergeParts_ne_nil (h : parts ≠ []) : mergeParts parts ≠ [] := by
  obtain ⟨part, rest, rfl⟩ := List.exists_cons_of_ne_nil h
  rw [mergeParts_cons]
  rcases consPart_cases part (mergeParts rest) with ⟨_, _, _, -, -, hcons⟩ | ⟨hcons, -⟩ <;>
  · rw [hcons]
    exact List.cons_ne_nil _ _

/-- What is merged into a single part that is no literal text was that part alone. -/
theorem eq_singleton_of_mergeParts (h : mergeParts parts = [part]) (htext : ∀ s, part ≠ text s) :
    parts = [part] := by
  cases parts with
  | nil => cases h
  | cons first rest =>
    rw [mergeParts_cons] at h
    rcases consPart_cases first (mergeParts rest) with ⟨s, t, _, -, -, hcons⟩ | ⟨hcons, -⟩
    · rw [hcons] at h
      exact absurd (List.head_eq_of_cons_eq h).symm (htext _)
    · rw [hcons] at h
      have hrest : rest = [] := by
        by_contra hne
        exact mergeParts_ne_nil hne (List.tail_eq_of_cons_eq h)
      rw [hrest, List.head_eq_of_cons_eq h]

section Operands

variable (h : ∀ p ∈ parts, p.NormalConcat)

include h

/-- Parts of normal texts are merged into a normal list. -/
theorem merged_concatParts : Merged (mergeParts (parts.flatMap concatParts)) := by
  refine merged_mergeParts fun p hp => ?_
  obtain ⟨e, he, hp⟩ := List.mem_flatMap.mp hp
  exact (h e he).plain_of_mem_concatParts p hp

/-- Normal texts bring parts. -/
theorem flatMap_concatParts_ne_nil (hne : parts ≠ []) : parts.flatMap concatParts ≠ [] := by
  obtain ⟨e, rest, rfl⟩ := List.exists_cons_of_ne_nil hne
  intro hnil
  exact (h e List.mem_cons_self).concatParts_ne_nil
    (List.flatMap_eq_nil_iff.mp hnil e List.mem_cons_self)

/-- A concatenation brings to another one what its operands bring, merged. -/
theorem concatParts_concatAll (hne : parts ≠ []) :
    (concatAll parts).concatParts = mergeParts (parts.flatMap concatParts) := by
  have hmerged := merged_concatParts h
  have hnil := mergeParts_ne_nil (flatMap_concatParts_ne_nil h hne)
  unfold concatAll
  split
  · next heq => exact absurd heq hnil
  · next part heq =>
    rw [heq] at hmerged ⊢
    exact concatParts_of_plain (hmerged.plain part List.mem_cons_self)
  · rfl

/-- Operands that bring a single part are that part alone. -/
theorem eq_singleton_of_concatParts (hparts : parts.flatMap concatParts = [part]) :
    parts = [part] := by
  cases parts with
  | nil => cases hparts
  | cons e rest =>
    obtain ⟨he, hrest⟩ := List.forall_mem_cons.mp h
    rw [List.flatMap_cons, List.append_eq_singleton_iff] at hparts
    rcases hparts with ⟨hnil, -⟩ | ⟨hparts, hnil⟩
    · exact absurd hnil he.concatParts_ne_nil
    · have hempty : rest = [] := by
        by_contra hne
        exact flatMap_concatParts_ne_nil hrest hne hnil
      rw [he.eq_of_concatParts_eq_singleton hparts, hempty]

/-- A concatenation is a literal text, its only operand, or a node in normal form. -/
theorem concatAll_cases :
    (∃ s, concatAll parts = text s) ∨
    (parts = [concatAll parts] ∧ (concatAll parts).isConcat = false) ∨
    ∃ operands, concatAll parts = scalar .concat .text .nary operands ∧
      2 ≤ operands.length ∧ Merged operands := by
  have hmerged := merged_concatParts h
  unfold concatAll
  split
  · exact .inl ⟨"", rfl⟩
  · next part heq =>
    rw [heq] at hmerged
    by_cases htext : ∃ s, part = text s
    · exact .inl htext
    · have hflat := eq_singleton_of_mergeParts heq (not_exists.mp htext)
      exact .inr (.inl ⟨eq_singleton_of_concatParts h hflat,
        hmerged.plain part List.mem_cons_self⟩)
  · next merged hnil hsingle =>
    refine .inr (.inr ⟨_, rfl, ?_, hmerged⟩)
    generalize mergeParts (parts.flatMap concatParts) = merged at hnil hsingle
    rcases merged with _ | ⟨part, _ | ⟨second, rest⟩⟩
    · exact absurd rfl hnil
    · exact absurd rfl (hsingle part)
    · exact Nat.le_add_left 2 rest.length

end Operands

/-- Concatenation normalises. Of operands whose own concatenations are in normal form it makes a
literal text, the only operand, or a node of two or more operands with no concatenation and no two
neighbouring literal texts among them; it gets there by joining neighbours; and it makes no
difference whether some of the operands of a concatenation have been concatenated before. -/
theorem concatAll_normalises (h : ∀ p ∈ parts, p.NormalConcat) :
    ((∃ s, concatAll parts = text s) ∨
      (parts = [concatAll parts] ∧ (concatAll parts).isConcat = false) ∨
      ∃ operands, concatAll parts = scalar .concat .text .nary operands ∧
        2 ≤ operands.length ∧ Merged operands) ∧
    (parts ≠ [] →
      Joins (parts.flatMap concatParts) (concatAll parts).concatParts ∧
      ∀ xs zs : List (Expr α),
        concatAll (xs ++ [concatAll parts] ++ zs) = concatAll (xs ++ parts ++ zs)) := by
  refine ⟨concatAll_cases h, fun hne => ?_⟩
  have hparts := concatParts_concatAll h hne
  refine ⟨hparts ▸ joins_mergeParts _, fun xs zs => ?_⟩
  have hmerged : mergeParts ((xs ++ [concatAll parts] ++ zs).flatMap concatParts) =
      mergeParts ((xs ++ parts ++ zs).flatMap concatParts) := by
    rw [List.flatMap_append, List.flatMap_append, List.flatMap_append, List.flatMap_append,
      List.flatMap_singleton, hparts, mergeParts_append_mergeParts]
  rw [concatAll, hmerged, concatAll]

/-- A concatenation of a column and a text, between two texts. -/
def label : List (Expr Float) :=
  [text "é", scalar .concat .text .binary [column ⟨⟨"t", none⟩, "name", .text⟩, text "b"], text "c"]

/-- Texts are joined across the seams of a concatenation that is an operand of another one. -/
theorem concatAll_normalises_label :
    (∀ p ∈ label, p.NormalConcat) ∧
    concatAll ([text "a"] ++ [concatAll label] ++ [text "d"]) =
      scalar .concat .text .nary [text "aé", column ⟨⟨"t", none⟩, "name", .text⟩, text "bcd"] := by
  have hnormal : ∀ p ∈ label, p.NormalConcat := by decide
  obtain ⟨-, hseam⟩ := concatAll_normalises hnormal
  exact ⟨hnormal, ((hseam (List.cons_ne_nil _ _)).2 [text "a"] [text "d"]).trans rfl⟩

end SpatialSql.Expr
