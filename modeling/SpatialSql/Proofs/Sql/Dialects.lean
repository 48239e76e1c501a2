import SpatialSql.Proofs.Sql.Rendering

/-!
# The built-in renderers

Standard SQL and the four dialects keep texts spanning, each in its own quotes. PostgreSQL
and MySQL answer an inequality of geometries by a negation that is not enclosed; the
other two enclose all they write.
-/

namespace SpatialSql.Sql

/-- Whether a dialect negates an equality of geometries by a prefix without parentheses. -/
def negatesByPrefix : Dialect → Bool
  | .postgres | .mysql => true
  | .sqlite | .sqlserver => false

/-- A negation that is not enclosed shows the blank behind its keyword. -/
theorem spans_not {q : Quoting} {text : String} (h : Spans q false text) :
    Spans q true ("NOT " ++ text) := by
  intro opened bare
  have hnot : (Reader.level opened bare).run q "NOT ".toList =
      some (.level opened (bare || (true && opened.isEmpty))) := by
    cases q <;> rfl
  obtain ⟨r, hr, hs⟩ := h opened (bare || (true && opened.isEmpty))
  refine ⟨r, ?_, ?_⟩
  · rw [String.toList_append, Reader.run_append, hnot, Option.bind_some, hr]
  · rw [hs, Bool.false_and, Bool.or_false]

/-- Standard SQL. -/
theorem tidy_ansi : Tidy .doubleQuotes false (Renderer.ansi : Renderer Float) where
  toTidyText := tidyText_standard
  identifier := spans_enclosed rfl
  number := spans_coordinateText
  boolean := spans_boolean
  substringBefore := tidyText_standard.before
  substringAfter := tidyText_standard.after
  ordinate index _ ht := tidyText_standard.ordinate index ht
  toText hn := spans_fill "CAST(" [" AS TEXT)"] (by decide) [_] rfl hn
  sqrt := spans_sqrt
  least := spans_least
  greatest := spans_greatest
  geometryLiteral _ wkt := tidyText_standard.literal wkt
  geometryFromText _ _ ht := ht
  lower _ hl := by contradiction

section Postgres

open Dialect.Postgres

/-- PostgreSQL reads a number out of a text within one cast. -/
theorem spans_postgres_ordinate (index : UInt32) {text : String} (ht : Inner .doubleQuotes text) :
    Spans .doubleQuotes false (ordinate text index) :=
  spans_fill "CAST(NULLIF((regexp_split_to_array(btrim(regexp_replace("
    [", '^[^(]*', ''), ' ()'), '[ ,()]+'))[", "], '') AS DOUBLE PRECISION)"] (by decide)
    [_, _] rfl ⟨ht, (spans_toString _).inner⟩

/-- PostgreSQL constructs a geometry by one call. -/
theorem spans_postgres_construct {kind : GeometryKind} {args : List String} {sql : String}
    (ha : ∀ arg ∈ args, Inner .doubleQuotes arg) (h : construct kind args = some sql) :
    Spans .doubleQuotes false sql := by
  have hargs := inner_intercalate glue_comma ha
  cases kind with
  | point =>
    obtain rfl := Option.some.inj h
    exact spans_call (by decide) ha
  | segment =>
    obtain rfl := Option.some.inj h
    exact spans_call (by decide) ha
  | line =>
    obtain rfl := Option.some.inj h
    exact spans_fill "ST_MakeLine(ARRAY[" ["])"] (by decide) [_] rfl hargs
  | multiPoint =>
    obtain rfl := Option.some.inj h
    exact spans_fill "ST_Collect(ARRAY[" ["])"] (by decide) [_] rfl hargs
  | polygon => contradiction

/-- What PostgreSQL lowers is delimited but for a negated equality. -/
theorem spans_postgres_lower {kind : GeometryKind} {op : SpatialOp} {args : List String} {sql : String}
    (ha : ∀ arg ∈ args, Inner .doubleQuotes arg) (h : lower kind op args = some sql) :
    Spans .doubleQuotes (op == .notEquals) sql := by
  cases op
  case construct => exact spans_postgres_construct ha h
  case notEquals =>
    obtain rfl := Option.some.inj h
    exact spans_not (spans_call (by decide) ha)
  case boundingBox =>
    obtain ⟨g, hg, rfl⟩ := Option.map_eq_some_iff.mp h
    have hg : Inner .doubleQuotes g := ha g (List.mem_of_head? hg)
    have hbound {function : String} (hf : closes .doubleQuotes (function ++ "(") [")"] = true) :
        Inner .doubleQuotes (call function [g]) :=
      inner_call_forall hf hg
    exact spans_call_forall (by decide)
      ⟨hbound (by decide), hbound (by decide), hbound (by decide), hbound (by decide)⟩
  case intersectionPoint =>
    obtain rfl := Option.some.inj h
    exact spans_call_forall (by decide)
      ⟨(spans_call (by decide) ha).inner, (spans_of_closes (by decide)).inner⟩
  case intersectionPoints =>
    obtain rfl := Option.some.inj h
    exact spans_call_forall (by decide) (spans_call (by decide) ha).inner
  case extent =>
    obtain rfl := Option.some.inj h
    exact (spans_call (by decide) ha).append (by decide) (spans_of_closes (by decide))
  case hasMagnitude | magnitude | toLine | toPolygon => contradiction
  all_goals
    obtain rfl := Option.some.inj h
    exact spans_call (by decide) ha

/-- PostgreSQL writes tidy SQL, with bare negations. -/
theorem tidy_postgres : Tidy .doubleQuotes true (renderer : Renderer Float) where
  toTidyText := tidyText_standard
  identifier := spans_enclosed rfl
  number := spans_coordinateText
  boolean := spans_boolean
  substringBefore := tidyText_standard.before
  substringAfter := tidyText_standard.after
  ordinate index _ ht := spans_postgres_ordinate index ht
  toText := tidy_ansi.toText
  sqrt := spans_sqrt
  least := spans_least
  greatest := spans_greatest
  geometryLiteral _ wkt := spans_call_forall (by decide) (tidyText_standard.literal wkt).inner
  geometryFromText _ _ ht := spans_call_forall (by decide) ht
  lower ha hl := spans_postgres_lower ha hl

end Postgres

section MySql

open Dialect.MySql

/-- MySQL writes its text functions as calls. -/
theorem tidyText_mysql : TidyText .backticks textForms where
  literal := tidyText_standard.literal
  concat hp := spans_call (by decide) hp
  position hn ht := spans_call_forall (by decide) ⟨hn, ht⟩
  substring ht hs hl := spans_call_optional (by decide) ht hs hl
  length ht := spans_call_forall (by decide) ht
  trim := tidyText_standard.trim
  replace := tidyText_standard.replace
  toNumber ht := spans_fill "CAST(" [" AS DOUBLE)"] (by decide) [_] rfl ht

/-- The bounds of an envelope, whatever shape it has. -/
theorem spans_mysql_bound (kind : GeometryKind) (op : SpatialOp) {g : String}
    (hg : Inner .backticks g) : Spans .backticks false (bound kind op g) := by
  have hread {p : String} (hp : Inner .backticks p) :
      Spans .backticks false (call (accessor op) [p]) := by
    unfold accessor
    split
    · exact spans_call_forall (by decide) hp
    · exact spans_call_forall (by decide) hp
    · exact spans_call_forall (by decide) hp
  unfold bound
  split
  · exact hread hg
  · have henvelope : Inner .backticks (call "ST_Envelope" [g]) := inner_call_forall (by decide) hg
    have hend {function : String} (hf : closes .backticks (function ++ "(") [")"] = true) :
        Inner .backticks (call function [call "ST_Envelope" [g]]) :=
      inner_call_forall hf henvelope
    unfold envelopeBound
    split
    next corner pick hpick =>
    have hfixed : closes .backticks corner [] = true ∧ closes .backticks (pick ++ "(") [")"] = true := by
      split at hpick <;> cases hpick <;> decide
    have hcorner : Inner .backticks
        (call "ST_PointN" [call "ST_ExteriorRing" [call "ST_Envelope" [g]], corner]) :=
      inner_call_forall (by decide) ⟨hend (by decide), (spans_of_closes hfixed.1).inner⟩
    exact spans_fill "CASE " [" WHEN 'POLYGON' THEN ", " WHEN 'LINESTRING' THEN ", " ELSE ", " END"]
      (by decide) [_, _, _, _] rfl
      ⟨hend (by decide), (hread hcorner).inner,
        inner_call_forall hfixed.2
          ⟨(hread (hend (by decide))).inner, (hread (hend (by decide))).inner⟩,
        (hread henvelope).inner⟩

/-- What MySQL lowers is delimited but for a negated equality. -/
theorem spans_mysql_lower {kind : GeometryKind} {op : SpatialOp} {args : List String} {sql : String}
    (ha : ∀ arg ∈ args, Inner .backticks arg) (h : lower kind op args = some sql) :
    Spans .backticks (op == .notEquals) sql := by
  cases op
  case construct =>
    cases kind with
    | polygon => contradiction
    | point | line | segment | multiPoint =>
      obtain rfl := Option.some.inj h
      exact spans_call (by decide) ha
  case notEquals =>
    obtain rfl := Option.some.inj h
    exact spans_not (spans_call (by decide) ha)
  case minX | maxX | minY | maxY =>
    obtain ⟨g, hg, rfl⟩ := Option.map_eq_some_iff.mp h
    exact spans_mysql_bound kind _ (ha g (List.mem_of_head? hg))
  case intersectionPoint =>
    cases kind with
    | segment =>
      obtain rfl := Option.some.inj h
      exact spans_call (by decide) ha
    | point | line | multiPoint | polygon => contradiction
  case boundingBox | spatialDimensions | hasMagnitude | magnitude | toLine | toPolygon | extent =>
    contradiction
  all_goals
    obtain rfl := Option.some.inj h
    exact spans_call (by decide) ha

/-- MySQL writes tidy SQL, with bare negations. -/
theorem tidy_mysql : Tidy .backticks true (renderer : Renderer Float) where
  toTidyText := tidyText_mysql
  identifier name := by
    have henclosed : (renderer : Renderer Float).identifier name =
        Text.enclosed (Char.ofNat 0x60) (Char.ofNat 0x60) name := by
      apply String.toList_inj.mp
      simp [renderer, Text.enclosed]
    rw [henclosed]
    exact spans_enclosed rfl name
  number := spans_coordinateText
  boolean := spans_boolean
  substringBefore := tidyText_mysql.before
  substringAfter := tidyText_mysql.after
  ordinate index _ ht :=
    spans_fill "CAST(REGEXP_SUBSTR(REGEXP_REPLACE(" [", '^[^(]*', ''), '[^ ,()]+', 1, ", ") AS DOUBLE)"]
      (by decide) [_, _] rfl ⟨ht, (spans_toString _).inner⟩
  toText hn := spans_fill "CAST(" [" AS CHAR)"] (by decide) [_] rfl hn
  sqrt := spans_sqrt
  least := spans_least
  greatest := spans_greatest
  geometryLiteral _ wkt := spans_call_forall (by decide) (tidyText_mysql.literal wkt).inner
  geometryFromText _ _ ht := spans_call_forall (by decide) ht
  lower ha hl := spans_mysql_lower ha hl

end MySql

section Sqlite

open Dialect.Sqlite

/-- SQLite writes its text functions as calls. -/
theorem tidyText_sqlite : TidyText .doubleQuotes textForms where
  literal := tidyText_standard.literal
  concat := tidyText_standard.concat
  position hn ht := spans_call_forall (by decide) ⟨ht, hn⟩
  substring ht hs hl := spans_call_optional (by decide) ht hs hl
  length := tidyText_standard.length
  trim := tidyText_standard.trim
  replace := tidyText_standard.replace
  toNumber ht := spans_fill "CAST(" [" AS REAL)"] (by decide) [_] rfl ht

/-- A text without the mark is not changed by doubling it. -/
theorem doubled_eq_self {mark : Char} {text : List Char} (h : mark ∉ text) :
    Text.doubled mark text = text := by
  induction text with
  | nil => rfl
  | cons c rest ih =>
    rw [List.mem_cons, not_or] at h
    rw [Text.doubled, if_neg (Ne.symm h.1), ih h.2]

/-- The path to a member of an array is a quoted text, with the index inside of the quotes. -/
theorem enclosed_path (n : Nat) :
    Text.enclosed '\'' '\'' ("$[" ++ toString n ++ "]") = "'$[" ++ toString n ++ "]'" := by
  have hdigits : '\'' ∉ (toString n).toList := by
    intro hc
    have hd := Nat.isDigit_of_mem_toDigits (b := 10) (by decide) (by decide)
      (Nat.toList_repr ▸ hc : '\'' ∈ Nat.toDigits 10 n)
    exact absurd hd (by decide)
  have hplain : '\'' ∉ ("$[" ++ toString n ++ "]").toList := by
    simpa using hdigits
  rw [Text.enclosed, doubled_eq_self hplain]
  apply String.toList_inj.mp
  simp

/-- SQLite turns a text into a JSON array and reads it at the index, within one cast. -/
theorem spans_sqlite_ordinate (index : UInt32) {text : String} (ht : Inner .doubleQuotes text) :
    Spans .doubleQuotes false (ordinate text index) := by
  have htag : Inner .doubleQuotes "'ABCDEFGHIJKLMNOPQRSTUVWXYZabcdefghijklmnopqrstuvwxyz ('" :=
    (spans_of_closes (by decide)).inner
  have hnumbers := spans_fill "REPLACE(REPLACE(TRIM(REPLACE(REPLACE(LTRIM("
    [", ", "), '(', ''), ')', '')), ', ', ','), ' ', ',')"] (by decide)
    [text, "'ABCDEFGHIJKLMNOPQRSTUVWXYZabcdefghijklmnopqrstuvwxyz ('"] rfl ⟨ht, htag⟩
  have hpath : Inner .doubleQuotes ("'$[" ++ toString index.toNat ++ "]'") := by
    rw [← enclosed_path]
    exact (spans_enclosed rfl _).inner
  have hcut : " || ']', '$[" = " || ']', " ++ "'$[" ∧ "]') AS REAL)" = "]'" ++ ") AS REAL)" :=
    ⟨rfl, rfl⟩
  have hfill := spans_fill "CAST(json_extract('[' || " [" || ']', ", ") AS REAL)"] (by decide)
    [_, "'$[" ++ toString index.toNat ++ "]'"] rfl ⟨hnumbers.inner, hpath⟩
  unfold ordinate
  simp only [hcut, fill, String.append_assoc] at hfill ⊢
  exact hfill

/-- SQLite writes tidy SQL. -/
theorem tidy_sqlite : Tidy .doubleQuotes false (renderer : Renderer Float) where
  toTidyText := tidyText_sqlite
  identifier := spans_enclosed rfl
  number := spans_coordinateText
  boolean value := by cases value <;> exact spans_of_closes (by decide)
  substringBefore := tidyText_sqlite.before
  substringAfter := tidyText_sqlite.after
  ordinate index _ ht := spans_sqlite_ordinate index ht
  toText hn := spans_fill "PRINTF('%.15g', " [")"] (by decide) [_] rfl hn
  sqrt := spans_sqrt
  least ha hb := spans_call_forall (by decide) ⟨ha, hb⟩
  greatest ha hb := spans_call_forall (by decide) ⟨ha, hb⟩
  geometryLiteral _ wkt := tidyText_sqlite.literal wkt
  geometryFromText _ _ ht := ht
  lower _ hl := by contradiction

end Sqlite

section SqlServer

open Dialect.SqlServer

/-- SQL Server writes its text functions as calls. -/
theorem tidyText_sqlserver : TidyText .brackets textForms where
  literal := tidyText_standard.literal
  concat hp := spans_fill "(" [")"] (by decide) [_] rfl
    (inner_intercalate (b := true) (glue_of_glues (by decide)) hp)
  position hn ht := spans_call_forall (by decide) ⟨hn, ht⟩
  substring := by
    intro text start length? ht hs hl
    refine spans_call_forall (by decide) ⟨ht, hs, ?_⟩
    cases length? with
    | none => exact inner_call_forall (by decide) ht
    | some n => exact hl n rfl
  length ht := spans_call_forall (by decide) ht
  trim := tidyText_standard.trim
  replace := tidyText_standard.replace
  toNumber ht := spans_fill "CAST(" [" AS FLOAT)"] (by decide) [_] rfl ht

/-- The comparison that picks one of two numbers. -/
theorem spans_pick {order a b : String} (ho : closes .brackets order [] = true)
    (ha : Inner .brackets a) (hb : Inner .brackets b) : Spans .brackets false (pick order a b) :=
  spans_fill "CASE WHEN " [" ", " ", " THEN ", " ELSE ", " END"] (by decide) [_, _, _, _, _] rfl
    ⟨ha, (spans_of_closes ho).inner, hb, ha, hb⟩

/-- A method call behind its receiver is delimited. -/
theorem spans_method {name : String} {args : List String} {sql : String}
    (hn : closes .brackets (name ++ "(") [")"] = true) (ha : ∀ arg ∈ args, Spans .brackets false arg)
    (h : method name args = some sql) : Spans .brackets false sql := by
  cases args with
  | nil => contradiction
  | cons receiver rest =>
    obtain rfl := Option.some.inj h
    have hcall : Spans .brackets false (call name rest) :=
      spans_call hn fun arg harg => (ha arg (List.mem_cons_of_mem _ harg)).inner
    exact (ha receiver List.mem_cons_self).glue glue_dot hcall

/-- A property behind its receiver is delimited. -/
theorem spans_property {name : String} {args : List String} {sql : String}
    (hn : closes .brackets name [] = true) (ha : ∀ arg ∈ args, Spans .brackets false arg)
    (h : property name args = some sql) : Spans .brackets false sql := by
  cases args with
  | nil => contradiction
  | cons receiver rest =>
    obtain rfl := Option.some.inj h
    exact (ha receiver List.mem_cons_self).glue glue_dot (spans_of_closes hn)

/-- A predicate is a method whose bit is compared in parentheses. -/
theorem spans_predicate {name bit : String} {args : List String} {sql : String}
    (hn : closes .brackets (name ++ "(") [")"] = true) (hb : closes .brackets bit [] = true)
    (ha : ∀ arg ∈ args, Spans .brackets false arg) (h : predicate name bit args = some sql) :
    Spans .brackets false sql := by
  unfold predicate at h
  split at h
  · next a b =>
    obtain rfl := Option.some.inj h
    simp only [List.forall_mem_cons] at ha
    exact spans_fill "(" [".", " = ", ")"] (by decide) [_, _, _] rfl
      ⟨ha.1.inner, inner_call_forall hn ha.2.1.inner, (spans_of_closes hb).inner⟩
  · contradiction

/-- A coordinate of a corner of an envelope. -/
theorem spans_corner {g corner coordinate : String} (hg : Spans .brackets false g)
    (hcorner : closes .brackets corner [] = true) (hcoordinate : closes .brackets coordinate [] = true) :
    Spans .brackets false (g ++ ".STEnvelope().STPointN(" ++ corner ++ ")." ++ coordinate) := by
  have hpoint : Spans .brackets false (".STEnvelope().STPointN(" ++ corner ++ ")") :=
    spans_fill ".STEnvelope().STPointN(" [")"] (by decide) [_] rfl (spans_of_closes hcorner).inner
  have hleads : leads .brackets (".STEnvelope().STPointN(" ++ corner ++ ")").toList = true := by
    rw [String.append_assoc, String.toList_append]
    rfl
  have hall := (hg.append hleads hpoint).glue glue_dot (spans_of_closes hcoordinate)
  rw [show ")." = ")" ++ "." from rfl]
  simp only [String.append_assoc] at hall ⊢
  exact hall

/-- SQL Server reads a bound off a point or off a corner of the envelope. -/
theorem spans_sqlserver_bound (kind : GeometryKind) (op : SpatialOp) {g : String}
    (hg : Spans .brackets false g) : Spans .brackets false (bound kind op g) := by
  have hpick {corner coordinate : String} (hcorner : closes .brackets corner [] = true)
      (hcoordinate : closes .brackets coordinate [] = true) :
      Spans .brackets false (if kind = .point then g ++ "." ++ coordinate
        else g ++ ".STEnvelope().STPointN(" ++ corner ++ ")." ++ coordinate) := by
    split
    · exact hg.glue glue_dot (spans_of_closes hcoordinate)
    · exact spans_corner hg hcorner hcoordinate
  refine hpick ?_ ?_
  · split <;> decide
  · split <;> decide

/-- SQL Server constructs points alone. -/
theorem spans_sqlserver_construct {kind : GeometryKind} {args : List String} {sql : String}
    (ha : ∀ arg ∈ args, Spans .brackets false arg) (h : construct kind args = some sql) :
    Spans .brackets false sql := by
  unfold construct at h
  split at h
  · obtain rfl := Option.some.inj h
    simp only [List.forall_mem_cons] at ha
    exact spans_call_forall (by decide)
      ⟨ha.1.inner, ha.2.1.inner, (spans_of_closes (by decide)).inner⟩
  · contradiction

/-- What SQL Server lowers is delimited. -/
theorem spans_sqlserver_lower {kind : GeometryKind} {op : SpatialOp} {args : List String} {sql : String}
    (ha : ∀ arg ∈ args, Spans .brackets false arg) (h : lower kind op args = some sql) :
    Spans .brackets false sql := by
  cases op
  case construct => exact spans_sqlserver_construct ha h
  case getX | getY => exact spans_property (by decide) ha h
  case minX | maxX | minY | maxY =>
    obtain ⟨g, hg, rfl⟩ := Option.map_eq_some_iff.mp h
    exact spans_sqlserver_bound kind _ (ha g (List.mem_of_head? hg))
  case intersectionPoint =>
    obtain ⟨points, hp, rfl⟩ := Option.map_eq_some_iff.mp h
    exact (spans_method (by decide) ha hp).append (by decide) (spans_of_closes (by decide))
  case extent =>
    obtain ⟨g, hg, rfl⟩ := Option.map_eq_some_iff.mp h
    exact spans_call_forall (by decide) (ha g (List.mem_of_head? hg)).inner
  case spatialDimensions | hasMagnitude | magnitude | toLine | toPolygon => contradiction
  case equals | notEquals | intersects | doesNotIntersect | contains | containsPoint | overlaps
      | touches | within =>
    exact spans_predicate (by decide) (by decide) ha h
  all_goals exact spans_method (by decide) ha h

/-- SQL Server writes tidy SQL. -/
theorem tidy_sqlserver : Tidy .brackets false (renderer : Renderer Float) where
  toTidyText := tidyText_sqlserver
  identifier := spans_enclosed rfl
  number := spans_coordinateText
  boolean value := by cases value <;> exact spans_of_closes (by decide)
  substringBefore := tidyText_sqlserver.before
  substringAfter := tidyText_sqlserver.after
  ordinate index _ ht := tidyText_sqlserver.ordinate index ht
  toText hn := spans_fill "CAST(" [" AS VARCHAR(64))"] (by decide) [_] rfl hn
  sqrt := spans_sqrt
  least ha hb := spans_pick (by decide) ha hb
  greatest ha hb := spans_pick (by decide) ha hb
  geometryLiteral _ wkt := spans_call_forall (by decide)
    ⟨(tidyText_sqlserver.literal wkt).inner, (spans_of_closes (by decide)).inner⟩
  geometryFromText _ _ ht := spans_call_forall (by decide)
    ⟨Spans.inner ht, (spans_of_closes (by decide)).inner⟩
  lower ha hl := spans_sqlserver_lower ha hl

end SqlServer

/-- Every dialect keeps texts spanning in its own quotes. -/
theorem tidy_renderer (d : Dialect) :
    Tidy d.quoting (negatesByPrefix d) (d.renderer : Renderer Float) := by
  cases d with
  | postgres => exact tidy_postgres
  | mysql => exact tidy_mysql
  | sqlite => exact tidy_sqlite
  | sqlserver => exact tidy_sqlserver

end SpatialSql.Sql
