import SpatialSql.Expr.Text
import SpatialSql.Proofs.Decimal.Plain
import SpatialSql.Proofs.Text.Tokens

/-!
# Ordinates of well-known text

The text of a geometry is a tag in front of its coordinates, with blanks, commas and
parentheses between them. Whatever the nesting, the tokens of what follows the first
parenthesis are the texts of the coordinates in reading order, and there are none in the
text of an empty geometry. So reading an ordinate gives the coordinate back as far as
reading a number undoes writing it.
-/

namespace SpatialSql

/-- The coordinates of points in reading order. -/
def ordinates {α : Type} (points : List (Point α)) : List α := points.flatMap fun p => [p.x, p.y]

/-- The points of a geometry in reading order, the point that closes a ring included. -/
def Literal.points {α : Type} : Literal α → List (Point α)
  | point p => [p]
  | line l => l.points
  | segment s => s.points
  | multiPoint m => m.points
  | polygon p => p.ring
  | bool _ | number _ | text _ => []

/-- A character that stands between ordinates. -/
def separatesOrdinates (c : Char) : Bool := Text.isBlank c || "(),".toList.contains c

/-- A text that is one token of well-known text. -/
structure IsOrdinate (text : String) : Prop where
  ne_nil : text.toList ≠ []
  solid : ∀ c ∈ text.toList, separatesOrdinates c = false

/-- Blanks, brackets and commas are no characters of a number. -/
theorem separatesOrdinates_of_toNat {c : Char} (hc : 45 ≤ c.toNat ∧ c.toNat ≤ 110) :
    separatesOrdinates c = false := by
  have hblank : Text.isBlank c = false := by
    simp only [Text.isBlank, Text.blankRanges, List.any_cons, List.any_nil, Bool.or_false,
      Bool.or_eq_false_iff, Bool.and_eq_false_iff, decide_eq_false_iff_not]
    omega
  have hmark : "(),".toList.contains c = false := by
    have hne (d : Char) (hd : d.toNat < 45) : c ≠ d := by
      rintro rfl
      omega
    change ['(', ')', ','].contains c = false
    simp [hne '(' (by decide), hne ')' (by decide), hne ',' (by decide)]
  rw [separatesOrdinates, hblank, hmark]
  rfl

/-- The text of a coordinate holds no separator. -/
theorem isOrdinate_coordinateText (x : Float) : IsOrdinate (Decimal.coordinateText x) := by
  obtain ⟨hne, hspelling⟩ := Decimal.coordinateText_spec x
  exact ⟨hne, fun c hc => separatesOrdinates_of_toNat (Decimal.toNat_of_isSpelling (hspelling c hc))⟩

section Tokens

variable {α : Type} [Numeral α]

/-- The tokens of a text are those between its first parenthesis and what closes it. -/
theorem ordinateTokens_append {opening body closing : String} {tag inner : List Char}
    (ho : opening.toList = tag ++ '(' :: inner) (ht : '(' ∉ tag)
    (hi : inner.all separatesOrdinates = true)
    (hc : closing.toList.all separatesOrdinates = true) :
    Expr.ordinateTokens (opening ++ body ++ closing).toList =
      Text.tokens separatesOrdinates body.toList := by
  have htext : (opening ++ body ++ closing).toList =
      tag ++ '(' :: (inner ++ body.toList ++ closing.toList) := by
    rw [String.toList_append, String.toList_append, ho]
    simp only [List.append_assoc, List.cons_append]
  rw [Expr.ordinateTokens, htext, Text.cut?_append_cons ht]
  exact Text.tokens_enclosed hi hc body.toList

variable (h : ∀ x : α, IsOrdinate (Numeral.text x))

include h

/-- The tokens of a pair of coordinates. -/
theorem tokens_coordinates (p : Point α) :
    Text.tokens separatesOrdinates p.coordinates.toList =
      [(Numeral.text p.x).toList, (Numeral.text p.y).toList] := by
  have htoken (x : α) : Text.tokens separatesOrdinates (Numeral.text x).toList =
      [(Numeral.text x).toList] :=
    Text.tokens_eq_singleton (h x).ne_nil (h x).solid
  rw [Point.coordinates, String.toList_append, String.toList_append,
    Text.tokens_append_append (by decide) (by decide), htoken, htoken]
  rfl

/-- The tokens of pairs between commas, each of them in parentheses or not. -/
theorem tokens_intercalate_coordinates {write : Point α → String}
    (hw : ∀ p, Text.tokens separatesOrdinates (write p).toList =
      Text.tokens separatesOrdinates p.coordinates.toList) (points : List (Point α)) :
    Text.tokens separatesOrdinates (String.intercalate ", " (points.map write)).toList =
      (ordinates points).map fun c => (Numeral.text c).toList := by
  rw [Text.tokens_intercalate (by decide) (by decide), List.flatMap_map, ordinates, List.map_flatMap]
  congr 1
  funext p
  exact (hw p).trans (tokens_coordinates h p)

/-- The tokens of the text of a geometry are the texts of its coordinates. -/
theorem ordinateTokens_wkt {value : Literal α} {kind : GeometryKind} {wkt : String}
    (hv : value.wkt? = some (kind, wkt)) :
    Expr.ordinateTokens wkt.toList =
      (ordinates value.points).map fun c => (Numeral.text c).toList := by
  have hlist (points : List (Point α)) :
      Text.tokens separatesOrdinates (coordinateList points).toList =
        (ordinates points).map fun c => (Numeral.text c).toList :=
    tokens_intercalate_coordinates h (fun _ => rfl) points
  have hline (points : List (Point α)) :
      Expr.ordinateTokens ("LINESTRING (" ++ coordinateList points ++ ")").toList =
        (ordinates points).map fun c => (Numeral.text c).toList := by
    rw [ordinateTokens_append (show "LINESTRING (".toList = "LINESTRING ".toList ++ '(' :: [] from rfl)
      (by decide) (by decide) (by decide), hlist]
  cases value with
  | bool _ | number _ | text _ => contradiction
  | point p =>
    cases hv
    rw [Point.wkt, ordinateTokens_append (show "POINT (".toList = "POINT ".toList ++ '(' :: [] from rfl)
      (by decide) (by decide) (by decide), tokens_coordinates h]
    rfl
  | line l =>
    cases hv
    unfold Line.wkt
    split
    · next he =>
      rw [Literal.points, List.isEmpty_iff.mp he]
      rfl
    · exact hline l.points
  | segment s =>
    cases hv
    exact hline s.points
  | multiPoint m =>
    cases hv
    unfold MultiPoint.wkt
    split
    · next he =>
      rw [Literal.points, List.isEmpty_iff.mp he]
      rfl
    · rw [ordinateTokens_append
        (show "MULTIPOINT (".toList = "MULTIPOINT ".toList ++ '(' :: [] from rfl)
        (by decide) (by decide) (by decide)]
      refine tokens_intercalate_coordinates h (fun p => ?_) m.points
      rw [String.toList_append, String.toList_append]
      exact Text.tokens_enclosed (by decide) (by decide) _
  | polygon p =>
    cases hv
    rw [Polygon.wkt,
      ordinateTokens_append (show "POLYGON ((".toList = "POLYGON ".toList ++ '(' :: ['('] from rfl)
        (by decide) (by decide) (by decide), hlist]
    rfl

/-- Reading an ordinate reads the text of a coordinate. -/
theorem ordinateOf?_wkt {value : Literal α} {kind : GeometryKind} {wkt : String}
    (hv : value.wkt? = some (kind, wkt)) (n : UInt32) :
    Expr.ordinateOf? (α := α) wkt n =
      (ordinates value.points)[n.toNat]?.bind fun c => Numeral.read? (Numeral.text c) := by
  rw [Expr.ordinateOf?, ordinateTokens_wkt h hv, List.getElem?_map]
  cases (ordinates value.points)[n.toNat]? with
  | none => rfl
  | some c =>
    change Numeral.read? (String.ofList (Numeral.text c).toList) = Numeral.read? (Numeral.text c)
    rw [String.ofList_toList]

end Tokens

/-- Reading the text of a double in full gives the double. Shortest decimals are made for this. -/
def Decimal.ReadsBack (x : Float) : Prop := Decimal.float? (Decimal.plain.text x).toList = some x

instance (x : Float) : Decidable (Decimal.ReadsBack x) :=
  inferInstanceAs (Decidable (Decimal.float? (Decimal.plain.text x).toList = some x))

/-- Coordinate text reads back to the double, but zero loses its sign. -/
theorem read?_text {x : Float} (h : Decimal.ReadsBack x) :
    Numeral.read? (Numeral.text x) = some (if x == 0 then 0 else x) := by
  change Decimal.float? (Decimal.coordinateText x).toList = _
  unfold Decimal.coordinateText
  split
  · decide +kernel
  · exact h

/-- In the text of a geometry, the ordinate at every position is the coordinate that is there in reading
order, without the sign of a zero, and beyond the last coordinate there is none. Numbers are expected to
read back from their shortest decimals. -/
theorem ordinate_wkt (value : Literal Float) (kind : GeometryKind) (wkt : String)
    (hv : value.wkt? = some (kind, wkt))
    (hr : ∀ c ∈ ordinates value.points, Decimal.ReadsBack c) (n : UInt32) :
    (Expr.text wkt : Expr Float).ordinate n =
      match (ordinates value.points)[n.toNat]? with
      | some c => Expr.number (if c == 0 then 0 else c)
      | none => .absent .number := by
  have hread := ordinateOf?_wkt isOrdinate_coordinateText hv n
  cases hc : (ordinates value.points)[n.toNat]? with
  | none =>
    rw [hc, Option.bind_none] at hread
    simp only [Expr.ordinate, Expr.text, Expr.text?, hread]
  | some c =>
    rw [hc, Option.bind_some, read?_text (hr c (List.mem_of_getElem? hc))] at hread
    simp only [Expr.ordinate, Expr.text, Expr.text?, hread]

/-- A triangle with a negative zero, a fraction and a large number among its coordinates. -/
def sliver : Polygon Float := ⟨[⟨-0.0, 1.5⟩, ⟨-2, 0.1⟩, ⟨1e15, 3⟩, ⟨-0.0, 1.5⟩]⟩

/-- The coordinates of `sliver` read back from its text, and there are eight of them. -/
theorem ordinate_wkt_sliver :
    (∀ c ∈ ordinates sliver.ring, Decimal.ReadsBack c) ∧
      (Expr.text sliver.wkt : Expr Float).ordinate 0 = Expr.number 0 ∧
      (Expr.text sliver.wkt : Expr Float).ordinate 3 = Expr.number 0.1 ∧
      (Expr.text sliver.wkt : Expr Float).ordinate 8 = .absent .number := by
  have hr : ∀ c ∈ ordinates sliver.ring, Decimal.ReadsBack c := by decide +kernel
  have hordinate (n : UInt32) := ordinate_wkt (.polygon sliver) .polygon sliver.wkt rfl hr n
  have hzero : (if (-0.0 : Float) == 0 then 0 else -0.0) = (0 : Float) := by decide +kernel
  have htenth : (if (0.1 : Float) == 0 then 0 else 0.1) = (0.1 : Float) := by decide +kernel
  exact ⟨hr, (hordinate 0).trans (congrArg Expr.number hzero),
    (hordinate 3).trans (congrArg Expr.number htenth), hordinate 8⟩

end SpatialSql
