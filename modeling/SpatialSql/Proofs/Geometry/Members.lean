import SpatialSql.Proofs.Geometry.Ordinates
import Mathlib.Logic.Function.Iterate

/-!
# Members of collections in well-known text

The text of a collection is the coordinates of its points between brackets and commas, which no
coordinate contains. So there is one comma less than there are points, dropping the text up to a
comma drops a member, and leaving out the brackets leaves the text of a line.
-/

namespace SpatialSql

/-- A character of a pair of coordinates. -/
def inCoordinates (c : Char) : Bool := c == ' ' || Decimal.isSpelling c

namespace Point

variable (p : Point Float)

/-- The coordinates of a point are two texts with a blank between them. -/
theorem toList_coordinates : p.coordinates.toList =
    (Decimal.coordinateText p.x).toList ++ ([' '] ++ (Decimal.coordinateText p.y).toList) := by
  rw [coordinates, String.toList_append, String.toList_append, List.append_assoc]
  rfl

/-- The text of coordinates holds no character of other parts of a geometry. -/
theorem not_mem_coordinates {mark : Char} (h : inCoordinates mark = false) :
    mark ∉ p.coordinates.toList := by
  obtain ⟨hblank, hspelling⟩ := Bool.or_eq_false_iff.mp h
  have hnumber (x : Float) : mark ∉ (Decimal.coordinateText x).toList := fun hmem =>
    Bool.false_ne_true (hspelling.symm.trans ((Decimal.coordinateText_spec x).2 mark hmem))
  simp [toList_coordinates, hnumber, ne_of_beq_false hblank]

/-- Removing such a character leaves the coordinates alone. -/
theorem filter_coordinates {mark : Char} (h : inCoordinates mark = false) :
    p.coordinates.toList.filter (· != mark) = p.coordinates.toList := by
  rw [List.filter_eq_self]
  intro c hc
  rw [bne_iff_ne]
  rintro rfl
  exact p.not_mem_coordinates h hc

/-- No blank stands at the ends of the coordinates. -/
theorem tight_coordinates : Text.Tight p.coordinates.toList := by
  have hsolid (x : Float) (c : Char) (hc : c ∈ (Decimal.coordinateText x).toList) :
      Text.isBlank c = false :=
    (Bool.or_eq_false_iff.mp ((isOrdinate_coordinateText x).solid c hc)).1
  have hnumber (x : Float) : Text.Tight (Decimal.coordinateText x).toList :=
    ⟨fun c hc => hsolid x c (List.mem_of_mem_head? hc),
      fun c hc => hsolid x c (List.mem_of_mem_getLast? hc)⟩
  rw [toList_coordinates]
  exact (hnumber p.x).append (Decimal.coordinateText_spec p.x).1 (hnumber p.y)
    (Decimal.coordinateText_spec p.y).1 [' ']

/-- The text of coordinates is not empty. -/
theorem coordinates_ne_nil : p.coordinates.toList ≠ [] := by
  simp [toList_coordinates]

end Point

/-- Texts with glue between them are the first one and the others behind glue. -/
theorem Text.toList_intercalate_cons (glue first : String) (rest : List String) :
    (String.intercalate glue (first :: rest)).toList =
      first.toList ++ rest.flatMap fun text => glue.toList ++ text.toList := by
  induction rest generalizing first with
  | nil => simp
  | cons next rest ih =>
    rw [String.intercalate_cons_cons, String.toList_append, String.toList_append, ih,
      List.flatMap_cons, List.append_assoc, List.append_assoc]

/-- Pairs of coordinates, each behind a comma. -/
def laterPairs (points : List (Point Float)) : List Char :=
  points.flatMap fun p => [',', ' '] ++ p.coordinates.toList

/-- Members of a collection, each behind a comma. -/
def laterMembers (points : List (Point Float)) : List Char :=
  points.flatMap fun p => [',', ' ', '('] ++ (p.coordinates.toList ++ [')'])

/-- The text of a collection from a member on, without the bracket that opens it. -/
def fromMember (p : Point Float) (rest : List (Point Float)) : List Char :=
  p.coordinates.toList ++ (')' :: (laterMembers rest ++ [')']))

/-- A list of coordinates begins with those of the first point. -/
theorem toList_coordinateList (p : Point Float) (rest : List (Point Float)) :
    (coordinateList (p :: rest)).toList = p.coordinates.toList ++ laterPairs rest := by
  rw [coordinateList, List.map_cons, Text.toList_intercalate_cons, List.flatMap_map, laterPairs]
  rfl

/-- The text of a collection opens two brackets before its first member. -/
theorem toList_multiPoint_wkt (p : Point Float) (rest : List (Point Float)) :
    (MultiPoint.mk (p :: rest)).wkt.toList =
      "MULTIPOINT ".toList ++ (['(', '('] ++ fromMember p rest) := by
  have hlater : (rest.map fun p => "(" ++ p.coordinates ++ ")").flatMap
      (fun text => ", ".toList ++ text.toList) = laterMembers rest := by
    simp [laterMembers, List.flatMap_map]
  simp only [MultiPoint.wkt, List.isEmpty_cons, Bool.false_eq_true, if_false, List.map_cons,
    String.toList_append, Text.toList_intercalate_cons, hlater, fromMember]
  simp

/-- The text of a polygon has its ring between double brackets. -/
theorem toList_polygon_wkt (polygon : Polygon Float) :
    polygon.wkt.toList =
      "POLYGON ".toList ++ (['(', '('] ++ ((coordinateList polygon.ring).toList ++ [')', ')'])) := by
  rw [Polygon.wkt, String.toList_append, String.toList_append]
  simp

/-- A list of coordinates holds commas, but no bracket. -/
theorem not_mem_coordinateList {mark : Char} (h : inCoordinates mark = false) (hcomma : mark ≠ ',')
    (points : List (Point Float)) : mark ∉ (coordinateList points).toList := by
  cases points with
  | nil =>
    rw [coordinateList, List.map_nil, String.intercalate_nil]
    exact List.not_mem_nil
  | cons p rest =>
    have hblank : mark ≠ ' ' := ne_of_beq_false (Bool.or_eq_false_iff.mp h).1
    simp [toList_coordinateList, laterPairs, Point.not_mem_coordinates, h, hblank, hcomma]

/-- No blank stands at the ends of a list of coordinates. -/
theorem tight_coordinateList (p : Point Float) (rest : List (Point Float)) :
    Text.Tight (coordinateList (p :: rest)).toList := by
  rw [toList_coordinateList]
  rcases List.eq_nil_or_concat rest with rfl | ⟨init, last, rfl⟩
  · rw [laterPairs, List.flatMap_nil, List.append_nil]
    exact p.tight_coordinates
  · have h := p.tight_coordinates.append p.coordinates_ne_nil last.tight_coordinates
      last.coordinates_ne_nil (laterPairs init ++ [',', ' '])
    simpa [laterPairs] using h

/-- A collection has one comma less than members; an empty one has no comma either. -/
theorem count_comma_wkt (m : MultiPoint Float) :
    m.wkt.toList.count ',' + 1 = max 1 m.points.length := by
  obtain ⟨points⟩ := m
  have hcoordinates (p : Point Float) : p.coordinates.toList.count ',' = 0 :=
    List.count_eq_zero.mpr (p.not_mem_coordinates (by decide))
  have hlater (rest : List (Point Float)) : (laterMembers rest).count ',' = rest.length := by
    induction rest with
    | nil => rfl
    | cons p rest ih =>
      rw [laterMembers, List.flatMap_cons, ← laterMembers]
      simp [hcoordinates, ih]
  cases points with
  | nil => decide
  | cons p rest =>
    rw [toList_multiPoint_wkt, fromMember]
    simp [hcoordinates, hlater]

/-- There is no comma in the tag, so the text has more characters than commas. -/
theorem count_comma_wkt_le (m : MultiPoint Float) : m.wkt.toList.count ',' + 11 ≤ m.wkt.length := by
  have htail : ∃ tail, m.wkt.toList = "MULTIPOINT ".toList ++ tail := by
    obtain ⟨points⟩ := m
    cases points with
    | nil => exact ⟨"EMPTY".toList, rfl⟩
    | cons p rest => exact ⟨_, toList_multiPoint_wkt p rest⟩
  obtain ⟨tail, htail⟩ := htail
  have hcount : "MULTIPOINT ".toList.count ',' = 0 := by decide
  have hlength : "MULTIPOINT ".toList.length = 11 := by decide
  have hle : tail.count ',' ≤ tail.length := List.count_le_length
  rw [← String.length_toList, htail, List.count_append, List.length_append, hcount, hlength]
  omega

/-- Without brackets, members are pairs of coordinates. -/
theorem filter_brackets_fromMember (p : Point Float) (rest : List (Point Float)) :
    ((fromMember p rest).filter (· != '(')).filter (· != ')') =
      (coordinateList (p :: rest)).toList := by
  have hopening (p : Point Float) : p.coordinates.toList.filter (· != '(') = p.coordinates.toList :=
    p.filter_coordinates (by decide)
  have hclosing (p : Point Float) : p.coordinates.toList.filter (· != ')') = p.coordinates.toList :=
    p.filter_coordinates (by decide)
  have hlater : ((laterMembers rest).filter (· != '(')).filter (· != ')') = laterPairs rest := by
    simp [laterMembers, laterPairs, List.filter_flatMap, hopening, hclosing]
  rw [toList_coordinateList, fromMember]
  simp [hopening, hclosing, hlater]

/-- Without its tag and its brackets, the text of a collection is the coordinates of a line. -/
theorem coordinates_of_multiPoint_wkt (p : Point Float) (rest : List (Point Float)) :
    Text.trimmed (Text.replace [')'] [] (Text.replace ['('] []
      (Text.replace "MULTIPOINT".toList [] (MultiPoint.mk (p :: rest)).wkt.toList))) =
        (coordinateList (p :: rest)).toList := by
  have hmark : 'M' ∉ [' ', '(', '('] ++ fromMember p rest := by
    have hp (p : Point Float) : 'M' ∉ p.coordinates.toList :=
      p.not_mem_coordinates (by decide)
    simp [fromMember, laterMembers, hp]
  have htag : "MULTIPOINT".toList = 'M' :: "ULTIPOINT".toList := by decide
  have htext : (MultiPoint.mk (p :: rest)).wkt.toList =
      [] ++ ('M' :: "ULTIPOINT".toList ++ ([' ', '(', '('] ++ fromMember p rest)) := by
    have hblank : "MULTIPOINT ".toList = "MULTIPOINT".toList ++ [' '] := by decide
    rw [toList_multiPoint_wkt, hblank, htag]
    simp
  have hlead : ([' ', '(', '('].filter (· != '(')).filter (· != ')') = [' '] := rfl
  have hblank : ∀ c ∈ [' '], Text.isBlank c = true := List.forall_mem_singleton.mpr (by decide)
  rw [htext, htag, Text.replace_pattern List.not_mem_nil hmark, List.nil_append, List.nil_append,
    Text.replace_mark_nil, Text.replace_mark_nil, List.filter_append, List.filter_append, hlead,
    filter_brackets_fromMember, Text.trimmed_append hblank (tight_coordinateList p rest)]

/-- With another tag and one bracket for two, the text of a polygon is the text of its ring. -/
theorem exteriorRing_of_polygon_wkt {polygon : Polygon Float} (h : polygon.ring ≠ []) :
    Text.replace [')', ')'] [')'] (Text.replace ['(', '('] ['(']
      (Text.replace "POLYGON".toList "LINESTRING".toList polygon.wkt.toList)) =
        polygon.exteriorRing.wkt.toList := by
  have hletter : 'P' ∉ (coordinateList polygon.ring).toList :=
    not_mem_coordinateList (by decide) (by decide) _
  have hopen : '(' ∉ (coordinateList polygon.ring).toList :=
    not_mem_coordinateList (by decide) (by decide) _
  have hclose : ')' ∉ (coordinateList polygon.ring).toList :=
    not_mem_coordinateList (by decide) (by decide) _
  have htag : "POLYGON".toList = 'P' :: "OLYGON".toList := by decide
  have hline : polygon.exteriorRing.wkt.toList =
      "LINESTRING (".toList ++ (coordinateList polygon.ring).toList ++ [')'] := by
    rw [Polygon.exteriorRing, Line.wkt, if_neg (by simpa using h), String.toList_append,
      String.toList_append]
    rfl
  rw [toList_polygon_wkt, hline]
  generalize (coordinateList polygon.ring).toList = ring at hletter hopen hclose
  have hnamed : "POLYGON ".toList ++ (['(', '('] ++ (ring ++ [')', ')'])) =
      [] ++ ('P' :: "OLYGON".toList ++ ([' ', '(', '('] ++ (ring ++ [')', ')']))) := by
    have hblank : "POLYGON ".toList = "POLYGON".toList ++ [' '] := by decide
    rw [hblank, htag]
    simp
  have hopened : [] ++ ("LINESTRING".toList ++ ([' ', '(', '('] ++ (ring ++ [')', ')']))) =
      "LINESTRING ".toList ++ (['(', '('] ++ (ring ++ [')', ')'])) := by
    simp
  have hclosed : "LINESTRING ".toList ++ (['('] ++ (ring ++ [')', ')'])) =
      "LINESTRING (".toList ++ ring ++ ([')', ')'] ++ []) := by
    simp
  rw [hnamed, htag, Text.replace_pattern List.not_mem_nil (by simp [hletter]), hopened,
    Text.replace_pattern (by decide) (by simp [hopen]), hclosed,
    Text.replace_pattern (by simp [hclose]) List.not_mem_nil, List.append_nil]

/-- What stands between a comma, or the start, and the coordinates of a member. -/
def IsLead (lead : List Char) : Prop := ∀ c ∈ lead, c = ' ' ∨ c = '('

/-- The text up to a comma is one member. -/
theorem after_comma {lead : List Char} (hl : IsLead lead) (p q : Point Float)
    (rest : List (Point Float)) :
    Text.after [','] (lead ++ fromMember p (q :: rest)) = [' ', '('] ++ fromMember q rest := by
  have hcomma : ',' ∉ lead ++ (p.coordinates.toList ++ [')']) := by
    have hlead : ',' ∉ lead := fun h => by simpa using hl _ h
    have hp : ',' ∉ p.coordinates.toList := p.not_mem_coordinates (by decide)
    simp [hlead, hp]
  have hshape : lead ++ fromMember p (q :: rest) =
      lead ++ (p.coordinates.toList ++ [')']) ++ ([','] ++ ([' ', '('] ++ fromMember q rest)) := by
    simp [fromMember, laterMembers]
  rw [hshape, Text.after_pattern hcomma]

/-- After as many commas as its index, the text goes on with a member. The first one is reached by
another bracket than the later ones, so the lead changes. -/
theorem after_commas {lead : List Char} (hl : IsLead lead) {p q : Point Float}
    {rest : List (Point Float)} {i : ℕ} (hi : (p :: rest)[i]? = some q) :
    ∃ lead' rest', IsLead lead' ∧
      (Text.after [','])^[i] (lead ++ fromMember p rest) = lead' ++ fromMember q rest' := by
  induction i generalizing lead p rest with
  | zero =>
    cases hi
    exact ⟨lead, rest, hl, rfl⟩
  | succ i ih =>
    cases rest with
    | nil => cases hi
    | cons next rest =>
      rw [Function.iterate_succ_apply, after_comma hl]
      exact ih (by simp [IsLead]) hi

/-- Up to its closing bracket, without opening ones and blanks, a member is its coordinates. -/
theorem coordinates_of_fromMember {lead : List Char} (hl : IsLead lead) (p : Point Float)
    (rest : List (Point Float)) :
    Text.trimmed (Text.replace ['('] [] (Text.before [')'] (lead ++ fromMember p rest))) =
      p.coordinates.toList := by
  have hclosing : ')' ∉ lead ++ p.coordinates.toList := by
    have hlead : ')' ∉ lead := fun h => by simpa using hl _ h
    have hp : ')' ∉ p.coordinates.toList := p.not_mem_coordinates (by decide)
    simp [hlead, hp]
  have hshape : lead ++ fromMember p rest =
      lead ++ p.coordinates.toList ++ ([')'] ++ (laterMembers rest ++ [')'])) := by
    simp [fromMember]
  have hblanks : ∀ c ∈ lead.filter (· != '('), Text.isBlank c = true := by
    intro c hc
    obtain ⟨hmem, hne⟩ := List.mem_filter.mp hc
    rcases hl c hmem with rfl | rfl
    · decide
    · contradiction
  rw [hshape, Text.before_pattern hclosing, Text.replace_mark_nil, List.filter_append,
    p.filter_coordinates (by decide), Text.trimmed_append hblanks p.tight_coordinates]

/-- The coordinates of the member at an index are found in the text of a collection. -/
theorem coordinates_of_member {m : MultiPoint Float} {q : Point Float} {i : ℕ}
    (hi : m.points[i]? = some q) :
    Text.trimmed (Text.replace ['('] [] (Text.before [')']
      ((Text.after [','])^[i] (Text.after ['(', '('] m.wkt.toList)))) = q.coordinates.toList := by
  obtain ⟨points⟩ := m
  cases points with
  | nil => cases hi
  | cons p rest =>
    have hstart : IsLead [] := by simp [IsLead]
    obtain ⟨lead, rest', hl, htext⟩ := after_commas hstart hi
    rw [toList_multiPoint_wkt, Text.after_pattern (by decide), ← coordinates_of_fromMember hl q rest',
      ← htext, List.nil_append]

end SpatialSql
