import SpatialSql.Proofs.Sql.Lexical

/-!
# Scanning SQL text piece by piece

A scanner that follows quotes, parentheses, brackets and case distinctions at once and
stops at anything that is not contained. A text *spans* when the scanner comes out of it
as it went in, so that it can stand wherever another such text can. Texts put together
from fixed pieces and spanning ones span again: `spans_fill` reduces this to a run of
the scanner over the fixed pieces alone.
-/

namespace SpatialSql.Sql

/-- What can stand open in an SQL text. -/
inductive Bracket where
  | parenthesis
  | square
  /-- A case distinction, from its first keyword to its last. -/
  | case
  deriving DecidableEq, Repr

/-- What stays open behind a closing bracket, which has to match the innermost one. -/
def drop? (b : Bracket) : List Bracket → Option (List Bracket)
  | [] => none
  | top :: rest => if top = b then some rest else none

/-- What stands open behind a character that belongs to no word. -/
def nest? (c : Char) (opened : List Bracket) : Option (List Bracket) :=
  match c with
  | '(' => some (.parenthesis :: opened)
  | '[' => some (.square :: opened)
  | ')' => drop? .parenthesis opened
  | ']' => drop? .square opened
  | _ => some opened

/-- What stands open behind a word. -/
def nestWord? (word : List Char) (opened : List Bracket) : Option (List Bracket) :=
  if word = "CASE".toList then some (.case :: opened)
  else if word = "END".toList then drop? .case opened
  else some opened

/-- What the scanner knows about the visible text it has read. -/
structure Scan where
  /-- What stands open, the innermost first. -/
  opened : List Bracket
  /-- The word it stands in or right behind. -/
  word : List Char
  /-- The character it stands behind, when that may begin a comment. -/
  mark : Option Char
  /-- A blank was read with nothing open. -/
  bare : Bool
  deriving DecidableEq, Repr

namespace Scan

/-- Ends the current word. -/
def finish (s : Scan) : Option Scan :=
  (nestWord? s.word s.opened).map fun opened => ⟨opened, [], s.mark, s.bare⟩

/-- A character that ends the statement or completes the start of a comment. -/
def escapes (s : Scan) (c : Char) : Bool :=
  c == ';' || (s.mark == some '-' && c == '-') || (s.mark == some '/' && c == '*')

/-- Reads a character that belongs to no word. -/
def read (s : Scan) (c : Char) : Option Scan :=
  if s.escapes c then none
  else
    (nest? c s.opened).map fun opened =>
      ⟨opened, [], if c = '-' ∨ c = '/' then some c else none,
        s.bare || (Text.isBlank c && s.opened.isEmpty)⟩

/-- Reads a visible character. -/
def step (s : Scan) (c : Char) : Option Scan :=
  if isWordChar c then some ⟨s.opened, s.word ++ [c], none, s.bare⟩
  else s.finish.bind fun s => s.read c

/-- Stands behind no word and no mark. -/
def level (opened : List Bracket) (bare : Bool) : Scan := ⟨opened, [], none, bare⟩

/-- The same scan inside of more brackets. -/
def under (s : Scan) (outer : List Bracket) (bare : Bool) : Scan :=
  ⟨s.opened ++ outer, s.word, s.mark, bare⟩

end Scan

/-- Closing a bracket does not depend on what stands open outside of it. -/
theorem drop?_append {b : Bracket} {opened rest : List Bracket} (outer : List Bracket)
    (h : drop? b opened = some rest) : drop? b (opened ++ outer) = some (rest ++ outer) := by
  cases opened with
  | nil => simp [drop?] at h
  | cons top inner =>
    simp only [drop?] at h
    split at h
    · next ht =>
      rw [← Option.some.inj h]
      simp [drop?, ht]
    · contradiction

/-- What a character opens or closes does not depend on what stands open outside. -/
theorem nest?_append {c : Char} {opened rest : List Bracket} (outer : List Bracket)
    (h : nest? c opened = some rest) : nest? c (opened ++ outer) = some (rest ++ outer) := by
  unfold nest? at h ⊢
  split at h
  · rw [← Option.some.inj h]
    rfl
  · rw [← Option.some.inj h]
    rfl
  · exact drop?_append outer h
  · exact drop?_append outer h
  · rw [← Option.some.inj h]

/-- What a word opens or closes does not depend on what stands open outside. -/
theorem nestWord?_append {word : List Char} {opened rest : List Bracket} (outer : List Bracket)
    (h : nestWord? word opened = some rest) :
    nestWord? word (opened ++ outer) = some (rest ++ outer) := by
  unfold nestWord? at h ⊢
  by_cases hcase : word = "CASE".toList
  · rw [if_pos hcase] at h ⊢
    rw [← Option.some.inj h]
    rfl
  · rw [if_neg hcase] at h ⊢
    by_cases hend : word = "END".toList
    · rw [if_pos hend] at h ⊢
      exact drop?_append outer h
    · rw [if_neg hend] at h ⊢
      rw [← Option.some.inj h]

namespace Scan

theorem finish_level (opened : List Bracket) (bare : Bool) :
    (level opened bare).finish = some (level opened bare) := rfl

/-- A scan ends within brackets as it does without them. -/
theorem finish_under {s s' : Scan} (outer : List Bracket) (bare : Bool) (h : s.finish = some s') :
    (s.under outer bare).finish = some (s'.under outer bare) := by
  obtain ⟨opened, ho, rfl⟩ := Option.map_eq_some_iff.mp h
  have ho' := nestWord?_append outer ho
  simp [finish, under, ho']

/-- A finished word changes nothing about blanks. -/
theorem bare_of_finish {s s' : Scan} (h : s.finish = some s') : s'.bare = s.bare := by
  obtain ⟨opened, _, rfl⟩ := Option.map_eq_some_iff.mp h
  rfl

/-- A scan inside of more brackets goes on in the same way, unless it meets a blank in the open. -/
theorem read_under {s s' : Scan} {c : Char} (outer : List Bracket) (bare : Bool)
    (h : s.read c = some s') (hb : outer = [] → s'.bare = false) :
    (s.under outer bare).read c = some (s'.under outer bare) := by
  unfold read at h ⊢
  by_cases he : s.escapes c = true
  · simp [he] at h
  · have he' : (s.under outer bare).escapes c = false := by simpa [escapes, under] using he
    rw [if_neg he] at h
    rw [if_neg (by simp [he'])]
    obtain ⟨opened, ho, rfl⟩ := Option.map_eq_some_iff.mp h
    have hblank : (Text.isBlank c && (s.opened ++ outer).isEmpty) = false := by
      cases outer with
      | nil =>
        have := hb rfl
        simp only [Bool.or_eq_false_iff] at this
        simpa using this.2
      | cons b rest => simp
    simp only [under, nest?_append outer ho, Option.map_some, hblank, Bool.or_false]

/-- A blank read with nothing open stays on record. -/
theorem bare_of_step {s s' : Scan} {c : Char} (h : s.step c = some s') (hb : s'.bare = false) :
    s.bare = false := by
  unfold step at h
  split at h
  · rw [← Option.some.inj h] at hb
    exact hb
  · obtain ⟨t, ht, hr⟩ := Option.bind_eq_some_iff.mp h
    rw [← bare_of_finish ht]
    unfold read at hr
    split at hr
    · contradiction
    · obtain ⟨opened, _, rfl⟩ := Option.map_eq_some_iff.mp hr
      exact (Bool.or_eq_false_iff.mp hb).1

/-- A scan takes a step within brackets as it does without them. -/
theorem step_under {s s' : Scan} {c : Char} (outer : List Bracket) (bare : Bool)
    (h : s.step c = some s') (hb : outer = [] → s'.bare = false) :
    (s.under outer bare).step c = some (s'.under outer bare) := by
  unfold step at h ⊢
  split at h
  · rw [← Option.some.inj h]
    simp_all [under]
  · next hc =>
    obtain ⟨t, ht, hr⟩ := Option.bind_eq_some_iff.mp h
    simp only [hc, Bool.false_eq_true, if_false, finish_under outer bare ht, Option.bind_some]
    exact read_under outer bare hr hb

end Scan

/-- A lexer together with the scanner of what it shows. -/
structure Reader where
  mode : Mode
  scan : Scan
  deriving DecidableEq, Repr

/-- A character that ends whatever comes before it and is no mark of a quote. -/
def isSeparator (q : Quoting) (c : Char) : Bool := " ,).:]".toList.contains c && c != q.closing

/-- What is checked of all separators holds of each. -/
theorem of_isSeparator {q : Quoting} {c : Char} {p : Char → Bool}
    (hp : " ,).:]".toList.all p = true) (h : isSeparator q c = true) : p c = true := by
  have hc : c ∈ " ,).:]".toList := by simpa using (Bool.and_eq_true_iff.mp h).1
  exact List.all_eq_true.mp hp c hc

/-- Separators are not part of words. -/
theorem isWordChar_of_isSeparator {q : Quoting} {c : Char} (h : isSeparator q c = true) :
    isWordChar c = false := by
  have hp : " ,).:]".toList.all (fun c => !isWordChar c) = true := by decide
  simpa using of_isSeparator hp h

/-- A separator is shown as it is. -/
theorem sign_of_isSeparator {q : Quoting} {c : Char} (h : isSeparator q c = true) :
    Mode.sign q c = c := by
  have hp : " ,).:]".toList.all (fun c => !isSeparator q c || Mode.sign q c == c) = true := by
    cases q <;> decide
  simpa [h] using of_isSeparator hp h

/-- A separator completes no comment mark, so only what stands open matters to it. -/
theorem Scan.read_of_isSeparator {q : Quoting} {s t : Scan} {c : Char} (h : isSeparator q c = true)
    (ho : s.opened = t.opened) (hb : s.bare = t.bare) : s.read c = t.read c := by
  have hp : " ,).:]".toList.all (fun c => c != ';' && c != '-' && c != '*') = true := by decide
  have hmark := of_isSeparator hp h
  simp only [Bool.and_eq_true, bne_iff_ne] at hmark
  have hescapes (s : Scan) : s.escapes c = false := by
    simp [Scan.escapes, hmark]
  simp only [Scan.read, hescapes, ho, hb]

namespace Reader

variable {q : Quoting}

/-- Reads a character. -/
def step (q : Quoting) (r : Reader) (c : Char) : Option Reader :=
  match r.mode.shown? q c with
  | none => some ⟨r.mode.next q c, r.scan⟩
  | some shown => (r.scan.step shown).map fun s => ⟨r.mode.next q c, s⟩

/-- Reads a text. -/
def run (q : Quoting) (r : Reader) (text : List Char) : Option Reader := text.foldlM (step q) r

/-- Outside quotes, behind no word and no mark. -/
def level (opened : List Bracket) (bare : Bool) : Reader := ⟨.outside, .level opened bare⟩

/-- The same reader inside of more brackets. -/
def under (r : Reader) (outer : List Bracket) (bare : Bool) : Reader :=
  ⟨r.mode, r.scan.under outer bare⟩

/-- What the scanner knows once a separator is read, which cannot stand inside quotes. -/
def settle (q : Quoting) (r : Reader) : Option Scan :=
  let scan := r.scan.finish.map fun s => { s with mark := none }
  match r.mode with
  | .outside => scan
  | .inside _ => none
  | .closed close => if isSeparator q close then none else scan

@[simp] theorem run_nil (r : Reader) : r.run q [] = some r := rfl

theorem run_cons (r : Reader) (c : Char) (text : List Char) :
    r.run q (c :: text) = (r.step q c).bind fun r => r.run q text := rfl

/-- A text is read piece by piece. -/
theorem run_append (r : Reader) (text rest : List Char) :
    r.run q (text ++ rest) = (r.run q text).bind fun r => r.run q rest :=
  List.foldlM_append

/-- A blank read with nothing open stays on record. -/
theorem bare_of_step {r r' : Reader} {c : Char} (h : r.step q c = some r')
    (hb : r'.scan.bare = false) : r.scan.bare = false := by
  unfold step at h
  split at h
  · rw [← Option.some.inj h] at hb
    exact hb
  · obtain ⟨s, hs, rfl⟩ := Option.map_eq_some_iff.mp h
    exact Scan.bare_of_step hs hb

/-- A bare blank is not forgotten. -/
theorem bare_of_run {r r' : Reader} {text : List Char} (h : r.run q text = some r')
    (hb : r'.scan.bare = false) : r.scan.bare = false := by
  induction text generalizing r with
  | nil =>
    rw [run_nil] at h
    rw [Option.some.inj h]
    exact hb
  | cons c rest ih =>
    rw [run_cons] at h
    obtain ⟨t, ht, hr⟩ := Option.bind_eq_some_iff.mp h
    exact bare_of_step ht (ih hr)

/-- A reader takes a step within brackets as it does without them. -/
theorem step_under {r r' : Reader} {c : Char} (outer : List Bracket) (bare : Bool)
    (h : r.step q c = some r') (hb : outer = [] → r'.scan.bare = false) :
    (r.under outer bare).step q c = some (r'.under outer bare) := by
  unfold step at h ⊢
  simp only [under]
  split at h
  · rw [← Option.some.inj h]
  · obtain ⟨s, hstep, rfl⟩ := Option.map_eq_some_iff.mp h
    simp [Scan.step_under outer bare hstep hb]

/-- A run inside of more brackets goes on in the same way, unless it meets a blank in the open. -/
theorem run_under {r r' : Reader} {text : List Char} (outer : List Bracket) (bare : Bool)
    (h : r.run q text = some r') (hb : outer = [] → r'.scan.bare = false) :
    (r.under outer bare).run q text = some (r'.under outer bare) := by
  induction text generalizing r with
  | nil =>
    rw [run_nil] at h
    rw [Option.some.inj h]
    rfl
  | cons c rest ih =>
    rw [run_cons] at h ⊢
    obtain ⟨t, ht, hr⟩ := Option.bind_eq_some_iff.mp h
    have hstep := step_under outer bare ht fun ho => bare_of_run hr (hb ho)
    rw [hstep, Option.bind_some]
    exact ih hr

/-- A reader settles outside quotes, once the word it stands in is finished. -/
theorem settle_eq_some_iff {r : Reader} {opened : List Bracket} {bare : Bool} :
    r.settle q = some (.level opened bare) ↔
      (∃ mark, r.scan.finish = some ⟨opened, [], mark, bare⟩) ∧
        (r.mode = .outside ∨ ∃ close, r.mode = .closed close ∧ isSeparator q close = false) := by
  have hfinish : (r.scan.finish.map fun s => { s with mark := none }) = some (.level opened bare) ↔
      ∃ mark, r.scan.finish = some ⟨opened, [], mark, bare⟩ := by
    rw [Option.map_eq_some_iff]
    constructor
    · rintro ⟨⟨_, _, mark, _⟩, hs, hl⟩
      simp only [Scan.level, Scan.mk.injEq] at hl
      obtain ⟨rfl, rfl, -, rfl⟩ := hl
      exact ⟨mark, hs⟩
    · rintro ⟨mark, hs⟩
      exact ⟨_, hs, rfl⟩
  unfold settle
  cases r.mode with
  | outside => simpa using hfinish
  | inside close => simp
  | closed close =>
    by_cases hc : isSeparator q close = true
    · simp [hc]
    · simpa [hc] using hfinish

/-- A text that closes what it opens settles around what stands open outside. -/
theorem settle_under {r : Reader} {opened : List Bracket} {b : Bool} (outer : List Bracket)
    (bare : Bool) (h : r.settle q = some (.level opened b)) :
    (r.under outer bare).settle q = some (.level (opened ++ outer) bare) := by
  rw [settle_eq_some_iff] at h ⊢
  obtain ⟨⟨mark, hf⟩, hmode⟩ := h
  exact ⟨⟨mark, Scan.finish_under outer bare hf⟩, hmode⟩

/-- Once settled, only what stands open matters to a separator. -/
theorem step_of_settle {r : Reader} {opened : List Bracket} {bare : Bool} {c : Char}
    (h : r.settle q = some (.level opened bare)) (hc : isSeparator q c = true) :
    r.step q c = (level opened bare).step q c := by
  obtain ⟨⟨mark, hf⟩, hmode⟩ := settle_eq_some_iff.mp h
  have hsign := sign_of_isSeparator hc
  have hscan : r.scan.step c = (Scan.level opened bare).step c := by
    simp only [Scan.step, isWordChar_of_isSeparator hc, Bool.false_eq_true, if_false, hf,
      Scan.finish_level, Option.bind_some]
    exact Scan.read_of_isSeparator hc rfl rfl
  unfold step
  rcases hmode with hm | ⟨close, hm, hclose⟩
  · simp only [hm, level, Mode.shown?, hsign, hscan]
  · have hne : c ≠ close := by
      rintro rfl
      rw [hc] at hclose
      contradiction
    simp only [hm, level, Mode.shown?, Mode.next, if_neg hne, hsign, hscan]

end Reader

end SpatialSql.Sql
