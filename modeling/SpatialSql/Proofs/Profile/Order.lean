import SpatialSql.Proofs.Profile.Overrides
import Mathlib.Data.List.Perm.Basic

/-!
# The order of the entries of a profile

The entries of a profile form a map, and a map has no order of its own. Whether they can be
read does not depend on the order they are read in. What the renderer lowers does: keys are
trimmed, so two of them may name one operation, and then the entry read last counts. The
orders agree exactly if entries for one operation have one effect.
-/

namespace SpatialSql.Profile

/-- The profile with its entries in another order. -/
def reordered (profile : Profile) (order : List (String × String)) : Profile :=
  { profile with lowerings := order }

/-- Entries for one operation have one effect on every list of operands. -/
def Unambiguous (profile : Profile) : Prop :=
  ∀ first ∈ profile.lowerings, ∀ second ∈ profile.lowerings,
    ∀ operation lowering lowering',
      entry first.1 first.2 = .ok (operation, lowering) →
      entry second.1 second.2 = .ok (operation, lowering') →
      ∀ operands, lowering.apply operands = lowering'.apply operands

variable {profile : Profile} {order : List (String × String)}
  {entries : List (Operation × Lowering)}

/-- In another order the same entries are read. -/
theorem exists_entries_reordered (h : profile.entries = .ok entries)
    (ho : order.Perm profile.lowerings) :
    ∃ entries', (profile.reordered order).entries = .ok entries' ∧ entries'.Perm entries := by
  obtain ⟨entries', hread, hperm⟩ := List.perm_comp_forall₂ ho (mapM_eq_ok_iff.mp h)
  exact ⟨entries', mapM_eq_ok_iff.mpr hread, hperm⟩

/-- An entry moved to the end is the first one found. -/
theorem lookup_reordered_last {init : List (String × String)} {key text : String}
    {operation : Operation} {lowering : Lowering}
    (h : (profile.reordered (init ++ [(key, text)])).entries = .ok entries)
    (he : entry key text = .ok (operation, lowering)) :
    entries.reverse.lookup operation = some lowering := by
  have hread := List.forall₂_reverse_iff.mpr (mapM_eq_ok_iff.mp h)
  rw [reordered, List.reverse_append, List.reverse_singleton, List.singleton_append] at hread
  obtain ⟨found, rest, hfound, -, hsplit⟩ := List.forall₂_cons_left_iff.mp hread
  obtain rfl := Except.ok.inj (hfound.symm.trans he)
  rw [hsplit, List.lookup_cons_self]

/-- The entries of an unambiguous profile have one effect for each operation. -/
theorem Unambiguous.apply_eq (hu : profile.Unambiguous) (h : profile.entries = .ok entries)
    {operation : Operation} {lowering lowering' : Lowering}
    (hl : (operation, lowering) ∈ entries) (hl' : (operation, lowering') ∈ entries)
    (operands : List String) : lowering.apply operands = lowering'.apply operands := by
  obtain ⟨first, hf, hfirst⟩ := exists_of_mem_mapM h hl
  obtain ⟨second, hs, hsecond⟩ := exists_of_mem_mapM h hl'
  exact hu first hf second hs operation lowering lowering' hfirst hsecond operands

/-- What is found is among the entries. -/
theorem mem_of_lookup_reverse {operation : Operation} {lowering : Lowering}
    (h : entries.reverse.lookup operation = some lowering) : (operation, lowering) ∈ entries := by
  obtain ⟨before, after, hsplit, -⟩ := List.lookup_eq_some_iff.mp h
  rw [← List.mem_reverse, hsplit]
  exact List.mem_append_right before List.mem_cons_self

/-- An operation found in one order is found in every order. -/
theorem lookup_reverse_eq_none_of_perm {entries' : List (Operation × Lowering)}
    (hp : entries'.Perm entries) {operation : Operation}
    (h : entries.reverse.lookup operation = none) :
    entries'.reverse.lookup operation = none := by
  rw [List.lookup_eq_none_iff] at h ⊢
  intro filed hf
  exact h filed (List.mem_reverse.mpr (hp.mem_iff.mp (List.mem_reverse.mp hf)))

variable {α : Type} [Numeral α]

/-- A profile whose entries can be read has a renderer. -/
theorem exists_renderer_of_entries (h : profile.entries = .ok entries) :
    ∃ r : Renderer α, profile.renderer = .ok r := by
  rw [renderer, h]
  exact ⟨_, rfl⟩

/-- The renderer lowers by the entries. -/
theorem lower_of_renderer (h : profile.entries = .ok entries) {r : Renderer α}
    (hr : profile.renderer = .ok r) :
    r.lower = (overriding (profile.base.renderer : Renderer α) entries).lower := by
  obtain ⟨read, hread, rfl⟩ := exists_entries_of_renderer hr
  obtain rfl := Except.ok.inj (hread.symm.trans h)
  rfl

/-- An entry moved to the end decides what becomes of its operation. -/
theorem lower_reordered_last {init : List (String × String)} {key text : String}
    {kind : GeometryKind} {op : SpatialOp} {lowering : Lowering} {r : Renderer α}
    (h : (profile.reordered (init ++ [(key, text)])).entries = .ok entries)
    (he : entry key text = .ok ((kind, op), lowering))
    (hr : (profile.reordered (init ++ [(key, text)])).renderer = .ok r) (operands : List String) :
    r.lower kind op operands = lowering.apply operands := by
  simp only [lower_of_renderer h hr, overriding, lookup_reordered_last h he]

omit [Numeral α] in
/-- Reading the same entries in another order gives an unambiguous profile the same lowering. -/
theorem Unambiguous.lower_overriding_of_perm (hu : profile.Unambiguous)
    (h : profile.entries = .ok entries) {entries₁ entries₂ : List (Operation × Lowering)}
    (h₁ : entries₁.Perm entries) (h₂ : entries₂.Perm entries) (base : Renderer α) :
    (overriding base entries₁).lower = (overriding base entries₂).lower := by
  funext kind op operands
  simp only [overriding]
  cases hfound : entries₁.reverse.lookup (kind, op) with
  | none => rw [lookup_reverse_eq_none_of_perm (h₂.trans h₁.symm) hfound]
  | some lowering =>
    cases hfound' : entries₂.reverse.lookup (kind, op) with
    | none =>
      have hnone := lookup_reverse_eq_none_of_perm (h₁.trans h₂.symm) hfound'
      rw [hfound] at hnone
      contradiction
    | some lowering' =>
      exact hu.apply_eq h (h₁.mem_iff.mp (mem_of_lookup_reverse hfound))
        (h₂.mem_iff.mp (mem_of_lookup_reverse hfound')) operands

/-- An entry can be read last. -/
theorem perm_erase_append_self {written : String × String} (h : written ∈ order) :
    (order.erase written ++ [written]).Perm order :=
  (List.perm_append_singleton written (order.erase written)).trans (List.perm_cons_erase h).symm

variable (α) in
/-- All orders of a valid profile have a renderer, and these lower everything alike exactly if the
entries for one operation have one effect, since either of two can be read last. -/
theorem lower_reordered_eq_iff (profile : Profile)
    (hvalid : ∃ entries, profile.entries = .ok entries) :
    (∀ order, order.Perm profile.lowerings →
      ∃ r : Renderer α, (profile.reordered order).renderer = .ok r) ∧
    ((∀ order order' (r r' : Renderer α),
        order.Perm profile.lowerings → order'.Perm profile.lowerings →
        (profile.reordered order).renderer = .ok r →
        (profile.reordered order').renderer = .ok r' → r.lower = r'.lower) ↔
      profile.Unambiguous) := by
  obtain ⟨entries, hread⟩ := hvalid
  have hrenders (order : List (String × String)) (ho : order.Perm profile.lowerings) :
      ∃ r : Renderer α, (profile.reordered order).renderer = .ok r := by
    obtain ⟨entries', hread', -⟩ := exists_entries_reordered hread ho
    exact exists_renderer_of_entries hread'
  refine ⟨hrenders, ?_, ?_⟩
  · intro hall first hf second hs operation lowering lowering' hfirst hsecond operands
    have ho := perm_erase_append_self hf
    have ho' := perm_erase_append_self hs
    obtain ⟨r, hr⟩ := hrenders _ ho
    obtain ⟨r', hr'⟩ := hrenders _ ho'
    obtain ⟨_, hread₁, -⟩ := exists_entries_reordered hread ho
    obtain ⟨_, hread₂, -⟩ := exists_entries_reordered hread ho'
    calc lowering.apply operands
        = r.lower operation.1 operation.2 operands :=
          (lower_reordered_last hread₁ hfirst hr operands).symm
      _ = r'.lower operation.1 operation.2 operands := by rw [hall _ _ r r' ho ho' hr hr']
      _ = lowering'.apply operands := lower_reordered_last hread₂ hsecond hr' operands
  · intro hu order order' r r' ho ho' hr hr'
    obtain ⟨entries₁, hread₁, hp₁⟩ := exists_entries_reordered hread ho
    obtain ⟨entries₂, hread₂, hp₂⟩ := exists_entries_reordered hread ho'
    rw [lower_of_renderer hread₁ hr, lower_of_renderer hread₂ hr']
    exact hu.lower_overriding_of_perm hread hp₁ hp₂ _

/-- SQLite with two entries for the first coordinate of a point, whose keys differ in a blank. -/
def twice (text text' : String) : Profile where
  name := "twice"
  base := .sqlite
  indexBase? := none
  lowerings := [("point2d.get_x", text), ("point2d .get_x", text')]

/-- A call of the function of that name on the first operand. -/
def callOf (name : Char) : Lowering := .template [.text [name, '('], .operand 0, .text [')']]

/-- Both spellings of the key name the operation, and blanks around a placeholder do not count. -/
theorem entry_twice :
    entry "point2d.get_x" "X(\x7b0\x7d)" = .ok ((.point, .getX), callOf 'X') ∧
    entry "point2d .get_x" "X(\x7b 0 \x7d)" = .ok ((.point, .getX), callOf 'X') ∧
    entry "point2d .get_x" "Y(\x7b0\x7d)" = .ok ((.point, .getX), callOf 'Y') := by
  decide +kernel

/-- Two entries with one effect: all orders lower alike. -/
theorem lower_reordered_eq_iff_twice :
    (∃ entries, (twice "X(\x7b0\x7d)" "X(\x7b 0 \x7d)").entries = .ok entries) ∧
    (∀ order order' (r r' : Renderer Float),
      order.Perm (twice "X(\x7b0\x7d)" "X(\x7b 0 \x7d)").lowerings →
      order'.Perm (twice "X(\x7b0\x7d)" "X(\x7b 0 \x7d)").lowerings →
      ((twice "X(\x7b0\x7d)" "X(\x7b 0 \x7d)").reordered order).renderer = .ok r →
      ((twice "X(\x7b0\x7d)" "X(\x7b 0 \x7d)").reordered order').renderer = .ok r' →
      r.lower = r'.lower) := by
  obtain ⟨hfirst, hsecond, -⟩ := entry_twice
  have hread : (twice "X(\x7b0\x7d)" "X(\x7b 0 \x7d)").entries =
      .ok [((.point, .getX), callOf 'X'), ((.point, .getX), callOf 'X')] :=
    mapM_eq_ok_iff.mpr (.cons hfirst (.cons hsecond .nil))
  refine ⟨⟨_, hread⟩, (lower_reordered_eq_iff Float _ ⟨_, hread⟩).2.mpr ?_⟩
  intro first hf second hs operation lowering lowering' hl hl' operands
  have heffect {written : String × String}
      (hw : written ∈ (twice "X(\x7b0\x7d)" "X(\x7b 0 \x7d)").lowerings) :
      entry written.1 written.2 = .ok ((.point, .getX), callOf 'X') := by
    rcases List.mem_pair.mp hw with rfl | rfl
    · exact hfirst
    · exact hsecond
  obtain ⟨-, rfl⟩ := Prod.mk.inj (Except.ok.inj ((heffect hf).symm.trans hl))
  obtain ⟨-, rfl⟩ := Prod.mk.inj (Except.ok.inj ((heffect hs).symm.trans hl'))
  rfl

/-- A map of distinct keys does not determine what is lowered: of two keys that differ in a blank,
the one read last decides. -/
theorem not_forall_lower_reordered_eq :
    ¬ ∀ (profile : Profile) (order order' : List (String × String)) (r r' : Renderer Float),
      (profile.lowerings.map Prod.fst).Nodup →
      order.Perm profile.lowerings → order'.Perm profile.lowerings →
      (profile.reordered order).renderer = .ok r →
      (profile.reordered order').renderer = .ok r' → r.lower = r'.lower := by
  intro hall
  obtain ⟨hfirst, -, hsecond⟩ := entry_twice
  have hread : ((twice "X(\x7b0\x7d)" "Y(\x7b0\x7d)").reordered
      ([("point2d.get_x", "X(\x7b0\x7d)")] ++ [("point2d .get_x", "Y(\x7b0\x7d)")])).entries =
      .ok [((.point, .getX), callOf 'X'), ((.point, .getX), callOf 'Y')] :=
    mapM_eq_ok_iff.mpr (.cons hfirst (.cons hsecond .nil))
  have hread' : ((twice "X(\x7b0\x7d)" "Y(\x7b0\x7d)").reordered
      ([("point2d .get_x", "Y(\x7b0\x7d)")] ++ [("point2d.get_x", "X(\x7b0\x7d)")])).entries =
      .ok [((.point, .getX), callOf 'Y'), ((.point, .getX), callOf 'X')] :=
    mapM_eq_ok_iff.mpr (.cons hsecond (.cons hfirst .nil))
  obtain ⟨r, hr⟩ := exists_renderer_of_entries (α := Float) hread
  obtain ⟨r', hr'⟩ := exists_renderer_of_entries (α := Float) hread'
  have heq := hall (twice "X(\x7b0\x7d)" "Y(\x7b0\x7d)") _ _ r r' (by decide) (.refl _)
    (.swap ..) hr hr'
  have hlower : (callOf 'Y').apply ["p"] = (callOf 'X').apply ["p"] := by
    rw [← lower_reordered_last hread hsecond hr, heq, lower_reordered_last hread' hfirst hr']
  exact absurd hlower (by decide)

end SpatialSql.Profile
