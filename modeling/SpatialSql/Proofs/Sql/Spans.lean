import SpatialSql.Proofs.Decimal.Plain
import SpatialSql.Proofs.Sql.Scan
import Mathlib.Data.List.Defs

/-!
# Texts that can stand anywhere

A text spans when a reader that stands outside quotes comes out of it outside quotes,
with the same brackets open. An exposed one shows a blank of its own. What is put
together from fixed pieces with spanning texts between them spans as well, and whether
the pieces are right is decided by running the reader over them.
-/

namespace SpatialSql.Sql

variable {q : Quoting}

/-- Leaves a reader at the level it came from. An exposed text shows a blank where nothing stands
open around it. -/
def Spans (q : Quoting) (exposed : Bool) (text : String) : Prop :=
  ∀ opened bare, ∃ r, (Reader.level opened bare).run q text.toList = some r ∧
    r.settle q = some (.level opened (bare || (exposed && opened.isEmpty)))

/-- Leaves a reader at the level it came from when something stands open around it. -/
def Inner (q : Quoting) (text : String) : Prop :=
  ∀ opened bare, opened ≠ [] → ∃ r, (Reader.level opened bare).run q text.toList = some r ∧
    r.settle q = some (.level opened bare)

/-- Brackets hide whether a text is exposed. -/
theorem Spans.inner {exposed : Bool} {text : String} (h : Spans q exposed text) : Inner q text := by
  intro opened bare ho
  obtain ⟨r, hr, hs⟩ := h opened bare
  have hopen : opened.isEmpty = false := by simpa using ho
  refine ⟨r, hr, ?_⟩
  rw [hs, hopen, Bool.and_false, Bool.or_false]

/-- Whether a text begins with a separator. -/
def leads (q : Quoting) : List Char → Bool
  | [] => false
  | c :: _ => isSeparator q c

/-- Behind a settled text, a separator goes on at its level. -/
theorem Reader.run_of_settle {r : Reader} {opened : List Bracket} {bare : Bool} {text : List Char}
    (h : r.settle q = some (.level opened bare)) (ht : leads q text = true) :
    r.run q text = (level opened bare).run q text := by
  cases text with
  | nil => contradiction
  | cons c rest =>
    rw [run_cons, run_cons, step_of_settle h ht]

/-- A fixed text between two others that begins with a separator and stays at its level. -/
structure Glue (q : Quoting) (exposed : Bool) (glue : String) : Prop where
  leads : leads q glue.toList = true
  run : ∀ opened bare, (Reader.level opened bare).run q glue.toList =
    some (.level opened (bare || (exposed && opened.isEmpty)))

/-- Whether a fixed text is glue, decided by running the reader over it with nothing open. -/
def glues (q : Quoting) (exposed : Bool) (glue : String) : Bool :=
  leads q glue.toList && [false, true].all fun bare =>
    decide ((Reader.level [] bare).run q glue.toList = some (.level [] (bare || exposed)))

/-- A fixed text that is glue with nothing open is glue everywhere. -/
theorem glue_of_glues {b : Bool} {glue : String} (h : glues q b glue = true) : Glue q b glue := by
  simp only [glues, Bool.and_eq_true, List.all_eq_true, decide_eq_true_eq] at h
  obtain ⟨hl, hrun⟩ := h
  refine ⟨hl, fun opened bare => ?_⟩
  cases opened with
  | nil =>
    rw [List.isEmpty_nil, Bool.and_true]
    exact hrun bare (by cases bare <;> simp)
  | cons top rest =>
    have hunder := Reader.run_under (top :: rest) bare (hrun false (by simp)) (by simp)
    rw [List.isEmpty_cons, Bool.and_false, Bool.or_false]
    exact hunder

theorem glue_dot : Glue q false "." := glue_of_glues (by cases q <;> decide)

theorem glue_comma : Glue q true ", " := glue_of_glues (by cases q <;> decide)

/-- Behind a text that has settled, one that begins with a separator is read at the level of the
text. -/
theorem Reader.run_join {opened : List Bracket} {bare bare' : Bool} {text rest : String} {r : Reader}
    (hrun : (level opened bare).run q text.toList = some r)
    (hsettle : r.settle q = some (.level opened bare')) (hl : leads q rest.toList = true) :
    (level opened bare).run q (text ++ rest).toList = (level opened bare').run q rest.toList := by
  rw [String.toList_append, run_append, hrun, Option.bind_some, run_of_settle hsettle hl]

/-- A text followed by one that begins with a separator. -/
theorem Spans.append {a b : Bool} {text rest : String} (ht : Spans q a text)
    (hl : leads q rest.toList = true) (hr : Spans q b rest) : Spans q (a || b) (text ++ rest) := by
  intro opened bare
  obtain ⟨r, hrun, hsettle⟩ := ht opened bare
  obtain ⟨r', hrun', hsettle'⟩ := hr opened (bare || (a && opened.isEmpty))
  refine ⟨r', (Reader.run_join hrun hsettle hl).trans hrun', ?_⟩
  rw [hsettle', Bool.or_assoc, ← Bool.and_or_distrib_right]

/-- Glue begins with a separator, whatever follows it. -/
theorem Glue.leads_append {b : Bool} {glue : String} (hg : Glue q b glue) (rest : String) :
    Sql.leads q (glue ++ rest).toList = true := by
  have hl := hg.leads
  rw [String.toList_append]
  cases h : glue.toList with
  | nil =>
    rw [h] at hl
    contradiction
  | cons c more =>
    rw [h] at hl
    exact hl

/-- Glue in front of a text shows its own blank and those of the text. -/
theorem Glue.append {b c : Bool} {glue rest : String} (hg : Glue q b glue) (hr : Spans q c rest) :
    Spans q (b || c) (glue ++ rest) := by
  intro opened bare
  obtain ⟨r, hrun, hsettle⟩ := hr opened (bare || (b && opened.isEmpty))
  refine ⟨r, ?_, ?_⟩
  · rw [String.toList_append, Reader.run_append, hg.run, Option.bind_some, hrun]
  · rw [hsettle, Bool.or_assoc, ← Bool.and_or_distrib_right]

/-- Two texts with glue between them. -/
theorem Spans.glue {a b c : Bool} {text glue rest : String} (ht : Spans q a text)
    (hg : Glue q b glue) (hr : Spans q c rest) : Spans q (a || b || c) (text ++ glue ++ rest) := by
  rw [Bool.or_assoc, String.append_assoc]
  exact ht.append (hg.leads_append rest) (hg.append hr)

/-- Two texts with glue between them, where something stands open around them. -/
theorem Inner.glue {b : Bool} {text glue rest : String} (ht : Inner q text) (hg : Glue q b glue)
    (hr : Inner q rest) : Inner q (text ++ glue ++ rest) := by
  intro opened bare ho
  have hopen : opened.isEmpty = false := by simpa using ho
  obtain ⟨r, hrun, hsettle⟩ := ht opened bare ho
  obtain ⟨r', hrun', hsettle'⟩ := hr opened bare ho
  refine ⟨r', ?_, hsettle'⟩
  rw [String.toList_append, Reader.run_append, Reader.run_join hrun hsettle hg.leads, hg.run, hopen,
    Bool.and_false, Bool.or_false, Option.bind_some, hrun']

/-- A list of texts with fixed glue between them. -/
theorem inner_intercalate {b : Bool} {glue : String} {texts : List String} (hg : Glue q b glue)
    (ht : ∀ text ∈ texts, Inner q text) : Inner q (String.intercalate glue texts) := by
  induction texts with
  | nil =>
    rw [String.intercalate_nil]
    exact fun opened bare _ => ⟨.level opened bare, rfl, rfl⟩
  | cons text rest ih =>
    have htext : Inner q text := ht text List.mem_cons_self
    cases rest with
    | nil =>
      rw [String.intercalate_singleton]
      exact htext
    | cons next more =>
      rw [String.intercalate_cons_cons]
      exact htext.glue hg (ih fun t hm => ht t (List.mem_cons_of_mem _ hm))

/-- A fixed start, and texts that are each followed by a fixed piece. -/
def fill (text : String) : List String → List String → String
  | hole :: holes, next :: nexts => fill (text ++ hole ++ next) holes nexts
  | _, _ => text

/-- Whether a reader stands inside brackets at every hole, and at the outermost level in the end, when
the holes are filled with texts that leave its level alone. -/
def Reader.closesAround (q : Quoting) (r : Reader) : List String → Bool
  | [] => decide (r.settle q = some (.level [] false))
  | next :: rest =>
    decide (r = .level r.scan.opened false) && !r.scan.opened.isEmpty && leads q next.toList &&
      match r.run q next.toList with
      | none => false
      | some r => r.closesAround q rest

/-- Whether fixed pieces make up a self-delimited text once their holes are filled. -/
def closes (q : Quoting) (start : String) (nexts : List String) : Bool :=
  match (Reader.level [] false).run q start.toList with
  | none => false
  | some r => r.closesAround q nexts

/-- What closes around its holes shows no blank. -/
theorem Reader.bare_of_closesAround {r : Reader} {nexts : List String}
    (h : r.closesAround q nexts = true) : r.scan.bare = false := by
  cases nexts with
  | nil =>
    have hs : r.settle q = some (.level [] false) := of_decide_eq_true h
    obtain ⟨⟨mark, hf⟩, -⟩ := settle_eq_some_iff.mp hs
    exact (Scan.bare_of_finish hf).symm
  | cons next rest =>
    simp only [closesAround, Bool.and_eq_true, decide_eq_true_eq] at h
    rw [h.1.1.1]
    rfl

/-- The holes behind a start that has been read, whatever stands open around it. -/
theorem spans_fill_of_run {text : String} {r : Reader} {holes nexts : List String}
    (hr : ∀ outer bare, (Reader.level outer bare).run q text.toList = some (r.under outer bare))
    (hc : r.closesAround q nexts = true) (hl : holes.length = nexts.length)
    (hh : holes.Forall (Inner q)) : Spans q false (fill text holes nexts) := by
  induction nexts generalizing text r holes with
  | nil =>
    rw [List.length_nil, List.length_eq_zero_iff] at hl
    subst hl
    intro outer bare
    have hs : r.settle q = some (.level [] false) := of_decide_eq_true hc
    refine ⟨r.under outer bare, hr outer bare, ?_⟩
    simpa using Reader.settle_under outer bare hs
  | cons next nexts ih =>
    obtain _ | ⟨hole, holes⟩ := holes
    · contradiction
    rw [List.forall_cons] at hh
    simp only [Reader.closesAround, Bool.and_eq_true, decide_eq_true_eq] at hc
    obtain ⟨⟨⟨hlevel, hopen⟩, hlead⟩, hnext⟩ := hc
    split at hnext
    · contradiction
    · next r' hrun =>
      refine ih (fun outer bare => ?_) hnext (Nat.succ.inj hl) hh.2
      have hunder : r.under outer bare = .level (r.scan.opened ++ outer) bare := by
        rw [hlevel]
        rfl
      have hne : r.scan.opened ++ outer ≠ [] := by
        intro he
        simp [(List.append_eq_nil_iff.mp he).1] at hopen
      -- The hole leaves the level alone, so the piece behind it is read as if it were not there.
      obtain ⟨s, hs, hsettle⟩ := hh.1 (r.scan.opened ++ outer) bare hne
      have hlift := Reader.run_under outer bare hrun fun _ => Reader.bare_of_closesAround hnext
      rw [String.toList_append, String.toList_append, Reader.run_append, Reader.run_append, hr,
        Option.bind_some, hunder, hs, Option.bind_some, Reader.run_of_settle hsettle hlead,
        ← hunder, hlift]

/-- Fixed pieces that close around their holes span when the holes are filled with inner texts. -/
theorem spans_fill (start : String) (nexts : List String) (hc : closes q start nexts = true)
    (holes : List String) (hl : holes.length = nexts.length) (hh : holes.Forall (Inner q)) :
    Spans q false (fill start holes nexts) := by
  unfold closes at hc
  split at hc
  · contradiction
  · next r hr =>
    refine spans_fill_of_run (fun outer bare => ?_) hc hl hh
    exact Reader.run_under outer bare hr fun _ => Reader.bare_of_closesAround hc

/-- A fixed text that closes what it opens spans. -/
theorem spans_of_closes {text : String} (hc : closes q text [] = true) : Spans q false text :=
  spans_fill text [] hc [] rfl trivial

/-- A function call. -/
theorem spans_call {function : String} {args : List String}
    (hf : closes q (function ++ "(") [")"] = true) (ha : ∀ arg ∈ args, Inner q arg) :
    Spans q false (call function args) :=
  spans_fill (function ++ "(") [")"] hf [_] rfl (inner_intercalate glue_comma ha)

/-- A function call with the arguments one by one. -/
theorem spans_call_forall {function : String} {args : List String}
    (hf : closes q (function ++ "(") [")"] = true) (ha : args.Forall (Inner q)) :
    Spans q false (call function args) :=
  spans_call hf (List.forall_iff_forall_mem.mp ha)

theorem inner_call_forall {function : String} {args : List String}
    (hf : closes q (function ++ "(") [")"] = true) (ha : args.Forall (Inner q)) :
    Inner q (call function args) :=
  (spans_call_forall hf ha).inner

/-- The marks of quotes are no separators. -/
theorem isSeparator_of_closing? {opening closing : Char} (h : q.closing? opening = some closing) :
    isSeparator q closing = false := by
  unfold Quoting.closing? at h
  split at h
  · rw [← Option.some.inj h]
    cases q <;> decide
  · split at h
    · rw [← Option.some.inj h]
      cases q <;> decide
    · contradiction

/-- A text whose closing marks are written twice does not leave its quotes. -/
theorem run_doubled (close : Char) (s : Scan) (text : List Char) :
    (Reader.mk (.inside close) s).run q (Text.doubled close text) = some ⟨.inside close, s⟩ := by
  induction text with
  | nil => rfl
  | cons c rest ih =>
    by_cases hc : c = close
    · simp [Text.doubled, hc, Reader.run_cons, Reader.step, Mode.shown?, Mode.next, ih]
    · simp [Text.doubled, hc, Reader.run_cons, Reader.step, Mode.shown?, Mode.next, ih]

/-- A quoted text spans, whatever it holds. -/
theorem spans_enclosed {opening closing : Char} (h : q.closing? opening = some closing)
    (text : String) : Spans q false (Text.enclosed opening closing text) := by
  intro opened bare
  have hsign : Mode.sign q opening = '\'' := by simp [Mode.sign, h]
  have hscan : (Scan.level opened bare).step '\'' = some (Scan.level opened bare) := by
    cases bare <;> rfl
  have hopen : (Reader.level opened bare).step q opening =
      some ⟨.inside closing, .level opened bare⟩ := by
    simp [Reader.step, Reader.level, Mode.shown?, Mode.next, Mode.enter, hsign, hscan, h]
  refine ⟨⟨.closed closing, .level opened bare⟩, ?_, ?_⟩
  · rw [Text.enclosed, String.toList_ofList, List.cons_append, Reader.run_cons, hopen,
      Option.bind_some, Reader.run_append, run_doubled, Option.bind_some]
    simp [Reader.run_cons, Reader.step, Mode.shown?, Mode.next]
  · rw [Bool.false_and, Bool.or_false, Reader.settle_eq_some_iff]
    exact ⟨⟨none, rfl⟩, Or.inr ⟨closing, rfl, isSeparator_of_closing? h⟩⟩

/-- Digits do not form a keyword. -/
theorem nestWord?_of_isDigit {word : List Char} (hw : ∀ c ∈ word, c.isDigit = true)
    (opened : List Bracket) : nestWord? word opened = some opened := by
  have hcase : word ≠ "CASE".toList := by
    rintro rfl
    exact absurd (hw 'C' (by decide)) (by decide)
  have hend : word ≠ "END".toList := by
    rintro rfl
    exact absurd (hw 'E' (by decide)) (by decide)
  rw [nestWord?, if_neg hcase, if_neg hend]

/-- A character of a number is no mark of a quote. -/
theorem closing?_of_isPlain {c : Char} (hc : Decimal.isPlain c = true) : q.closing? c = none := by
  have hquote : c ≠ '\'' := by
    rintro rfl
    exact absurd hc (by decide)
  have hopen : c ≠ q.opening := by
    rintro rfl
    cases q <;> exact absurd hc (by decide)
  simp [Quoting.closing?, hquote, hopen]

/-- Digits and points move a scan only inside of words. -/
theorem run_isPlain {text : List Char} (ht : ∀ c ∈ text, Decimal.isPlain c = true) (s : Scan)
    (hs : ∀ c ∈ s.word, c.isDigit = true) :
    ∃ word mark, (Reader.mk .outside s).run q text = some ⟨.outside, ⟨s.opened, word, mark, s.bare⟩⟩ ∧
      ∀ c ∈ word, c.isDigit = true := by
  induction text generalizing s with
  | nil => exact ⟨s.word, s.mark, rfl, hs⟩
  | cons c rest ih =>
    have hnone := closing?_of_isPlain (q := q) (ht c List.mem_cons_self)
    have hrest : ∀ c ∈ rest, Decimal.isPlain c = true := fun d hd => ht d (List.mem_cons_of_mem _ hd)
    have hstep (t : Scan) (hc : s.step c = some t) :
        (Reader.mk .outside s).step q c = some ⟨.outside, t⟩ := by
      simp [Reader.step, Mode.shown?, Mode.next, Mode.enter, Mode.sign, hnone, hc]
    rcases Bool.or_eq_true_iff.mp (ht c List.mem_cons_self) with hc | hc
    · have hword : isWordChar c = true := by simp [isWordChar, Char.isAlphanum, hc]
      have hscan : s.step c = some ⟨s.opened, s.word ++ [c], none, s.bare⟩ := by
        simp [Scan.step, hword]
      rw [Reader.run_cons, hstep _ hscan, Option.bind_some]
      refine ih hrest ⟨s.opened, s.word ++ [c], none, s.bare⟩ fun d hd => ?_
      rcases List.mem_append.mp hd with hd | hd
      · exact hs d hd
      · rw [List.mem_singleton.mp hd]
        exact hc
    · obtain rfl : c = '.' := by simpa using hc
      have hscan : s.step '.' = some ⟨s.opened, [], none, s.bare⟩ := by
        have hword : isWordChar '.' = false := by decide
        simp [Scan.step, hword, Scan.finish, nestWord?_of_isDigit hs, Scan.read, Scan.escapes, nest?,
          Text.isBlank, Text.blankRanges]
      rw [Reader.run_cons, hstep _ hscan, Option.bind_some]
      exact ih hrest ⟨s.opened, [], none, s.bare⟩ (by simp)

/-- A number that is written out in full spans, with or without a sign. -/
theorem spans_of_isPlain {sign text : List Char} (hs : sign = [] ∨ sign = ['-'])
    (ht : ∀ c ∈ text, Decimal.isPlain c = true) : Spans q false (String.ofList (sign ++ text)) := by
  intro opened bare
  obtain ⟨mark, hm⟩ : ∃ mark, (Reader.level opened bare).run q sign =
      some ⟨.outside, ⟨opened, [], mark, bare⟩⟩ := by
    rcases hs with rfl | rfl
    · exact ⟨none, rfl⟩
    · exact ⟨some '-', by cases q <;> cases bare <;> rfl⟩
  obtain ⟨word, mark', hrun, hword⟩ := run_isPlain (q := q) ht ⟨opened, [], mark, bare⟩ (by simp)
  refine ⟨⟨.outside, ⟨opened, word, mark', bare⟩⟩, ?_, ?_⟩
  · rw [String.toList_ofList, Reader.run_append, hm, Option.bind_some, hrun]
  · rw [Bool.false_and, Bool.or_false, Reader.settle_eq_some_iff]
    exact ⟨⟨mark', by simp [Scan.finish, nestWord?_of_isDigit hword]⟩, Or.inl rfl⟩

/-- A natural number spans. -/
theorem spans_toString (n : Nat) : Spans q false (toString n) := by
  have htext : toString n = String.ofList ([] ++ Nat.toDigits 10 n) := by
    rw [List.nil_append, ← Nat.toList_repr, String.ofList_toList]
    rfl
  rw [htext]
  refine spans_of_isPlain (Or.inl rfl) fun c hc => ?_
  simp [Decimal.isPlain, Nat.isDigit_of_mem_toDigits (by decide) (by decide) hc]

/-- A finite double is a sign and a magnitude. -/
theorem spans_dyadicText (d : Decimal.Dyadic) :
    Spans q false (String.ofList (Decimal.plain.dyadicText d)) := by
  have hsign : (if d.negative = true then ['-'] else []) = [] ∨
      (if d.negative = true then ['-'] else []) = ['-'] := by
    cases d.negative <;> simp
  simp only [Decimal.Layout.dyadicText]
  generalize (if d.negative = true then ['-'] else []) = sign at hsign
  split
  · refine spans_of_isPlain hsign fun c hc => Decimal.isPlain_of_mem_pointed (fun d hd => ?_) hc
    rw [List.mem_singleton.mp hd]
    decide
  · exact spans_of_isPlain hsign fun c hc => Decimal.isPlain_of_mem_magnitudeText hc

/-- The text of a double spans: a number in full, with a sign or not, or a name. -/
theorem spans_coordinateText (x : Float) : Spans q false (Decimal.coordinateText x) := by
  unfold Decimal.coordinateText
  split
  · exact spans_of_closes (by cases q <;> decide)
  · unfold Decimal.Layout.text
    split
    · exact spans_dyadicText _
    · exact spans_of_closes (by cases q <;> decide)
    · exact spans_of_closes (by cases q <;> decide)
    · exact spans_of_closes (by cases q <;> decide)

end SpatialSql.Sql
