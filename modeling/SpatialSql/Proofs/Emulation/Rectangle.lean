import SpatialSql.Proofs.Meaning.Constructions

/-!
# The two texts of a bounding box

The box around a literal is computed as a polygon; the box around any other operand is written
as a text from its four sides. Where the sides are numbers the text is a literal too, with the
four corners of the box and the first one again. The polygon repeats the first corner only if
the last one differs from it, so the two texts agree exactly for boxes that have a height.
-/

namespace SpatialSql

namespace Decimal

variable {x y : Float}

/-- A double that compares with another one equals itself. -/
theorem beq_self_of_le (h : x ≤ y) : (x == x) = true := by
  apply beq_self_of_not_isNaN
  change (unpacked x).isNaN = false
  rw [le_iff_compare] at h
  cases hu : unpacked x with
  | notANumber =>
    rw [hu] at h
    contradiction
  | zero s | infinity s | finite s m e hm => rfl

/-- Of two doubles in order, the first is smaller unless they are equal. -/
theorem lt_iff_beq_eq_false_of_le (h : x ≤ y) : x < y ↔ (x == y) = false := by
  rw [le_iff_compare] at h
  rw [lt_iff_compare, ← Bool.not_eq_true, beq_iff_compare]
  cases hc : (unpacked x).compare (unpacked y) with
  | none =>
    rw [hc] at h
    contradiction
  | some order =>
    rw [hc] at h
    cases order with
    | lt | eq => simp
    | gt => contradiction

end Decimal

namespace Expr

variable {α : Type}

/-- Literal texts merge into one. -/
theorem mergeParts_map_text (first : String) (rest : List String) :
    mergeParts ((first :: rest).map (text (α := α))) = [text (String.join (first :: rest))] := by
  induction rest generalizing first with
  | nil =>
    rw [String.join_cons, String.join_nil, String.append_empty]
    rfl
  | cons second rest ih =>
    rw [List.map_cons, mergeParts, List.foldr_cons, ← mergeParts, ih]
    exact congrArg (fun s => [text s]) String.join_cons.symm

/-- A concatenation of literal texts is a literal. -/
theorem concatAll_map_text (first : String) (rest : List String) :
    concatAll ((first :: rest).map (text (α := α))) = text (String.join (first :: rest)) := by
  have hparts : ((first :: rest).map (text (α := α))).flatMap concatParts =
      (first :: rest).map text := by
    rw [List.flatMap_map]
    exact List.map_eq_flatMap.symm
  rw [concatAll, hparts, mergeParts_map_text]

end Expr

namespace Emulation

open SpatialSql.Expr

variable {α : Type}

/-- Commas between literal texts are literal texts. -/
theorem exists_joined_map_text (items : List String) :
    ∃ parts, joined (items.map (text (α := α))) = parts.map text ∧
      String.join parts = String.intercalate ", " items := by
  induction items with
  | nil => exact ⟨[], rfl, rfl⟩
  | cons item rest ih =>
    obtain ⟨parts, hparts, hjoin⟩ := ih
    cases rest with
    | nil => exact ⟨[item], rfl, by simp⟩
    | cons next rest =>
      refine ⟨item :: ", " :: parts, ?_, ?_⟩
      · rw [List.map_cons, List.map_cons, joined, ← List.map_cons, hparts]
        · rfl
        · exact List.cons_ne_nil _ _
      · rw [String.join_cons, String.join_cons, hjoin, String.intercalate_cons_cons,
          String.append_assoc]

/-- Literal texts in a frame are a literal. -/
theorem wrapped_joined_map_text (opening closing : String) (items : List String) :
    wrapped opening (joined (items.map (text (α := α)))) closing =
      text (opening ++ String.intercalate ", " items ++ closing) := by
  obtain ⟨parts, hparts, hjoin⟩ := exists_joined_map_text (α := α) items
  have hframe : text opening :: parts.map text ++ [text (α := α) closing] =
      (opening :: (parts ++ [closing])).map text := by
    rw [List.map_cons, List.map_append, List.map_singleton, List.cons_append]
  rw [wrapped, hparts, hframe, concatAll_map_text, String.join_cons, String.join_append, hjoin,
    String.join_cons, String.join_nil, String.append_empty, String.append_assoc]

variable [Numeral α]

/-- The pair of two numbers is the text of the point. -/
theorem pairText_number (p : Point α) : pairText (number p.x) (number p.y) = text p.coordinates := by
  rw [Point.coordinates, String.append_assoc]
  rfl

end Emulation

namespace Bounds

/-- The lower left corner. -/
def lowerLeft {α : Type} (b : Bounds α) : Point α := ⟨b.minX, b.minY⟩

/-- The polygon through the four corners of a box and the first one again. -/
def fiveCorners {α : Type} [Coordinate α] (b : Bounds α) : Polygon α := ⟨b.corners ++ [b.lowerLeft]⟩

/-- The ring of a box repeats its first corner exactly if the box has a height. -/
theorem ring_rectangle {b : Bounds Float} (hx : b.minX ≤ b.maxX) (hy : b.minY ≤ b.maxY) :
    (Polygon.rectangle b).ring =
      if b.minY < b.maxY then b.corners ++ [b.lowerLeft] else b.corners := by
  have hclosed : (b.lowerLeft == (⟨b.minX, b.maxY⟩ : Point Float)) = (b.minY == b.maxY) := by
    rw [Point.beq_eq]
    exact (congrArg (· && _) (Decimal.beq_self_of_le hx)).trans (Bool.true_and _)
  have hfirst : b.corners.head? = some b.lowerLeft := rfl
  have hlast : b.corners.getLast? = some ⟨b.minX, b.maxY⟩ := rfl
  rw [Polygon.rectangle, Polygon.closeRing_eq hfirst hlast, hclosed]
  simp only [Decimal.lt_iff_beq_eq_false_of_le hy]
  cases b.minY == b.maxY <;> rfl

/-- The text of the polygon of a box. -/
theorem wkt_rectangle {b : Bounds Float} (hx : b.minX ≤ b.maxX) (hy : b.minY ≤ b.maxY) :
    (Polygon.rectangle b).wkt =
      if b.minY < b.maxY then b.fiveCorners.wkt else (Polygon.mk b.corners).wkt := by
  rw [Polygon.wkt, ring_rectangle hx hy, apply_ite coordinateList]
  split <;> rfl

/-- A corner more is a longer text. -/
theorem wkt_corners_ne (b : Bounds Float) : (Polygon.mk b.corners).wkt ≠ b.fiveCorners.wkt := by
  intro h
  have hne : b.corners ≠ [] := List.cons_ne_nil _ _
  have hlength := congrArg String.length h
  simp only [Polygon.wkt, fiveCorners, coordinateList_concat hne, String.length_append] at hlength
  have hcomma : ", ".length = 2 := rfl
  omega

end Bounds

namespace Emulation

open SpatialSql.Expr

/-- The text written from four numbers. -/
theorem rectangleText_number {α : Type} [Numeral α] (b : Bounds α) :
    rectangleText (number b.minX) (number b.minY) (number b.maxX) (number b.maxY) =
      text b.fiveCorners.wkt := by
  calc rectangleText (number b.minX) (number b.minY) (number b.maxX) (number b.maxY)
      = wrapped "POLYGON ((" (joined (b.fiveCorners.ring.map fun p =>
          pairText (number p.x) (number p.y))) "))" := rfl
    _ = wrapped "POLYGON ((" (joined ((b.fiveCorners.ring.map Point.coordinates).map text))
          "))" := by
        rw [List.map_map, List.map_congr_left fun p _ => pairText_number p]
        rfl
    _ = text b.fiveCorners.wkt := wrapped_joined_map_text ..

/-- Every geometry has a form for its box. -/
theorem emulate?_boundingBox (kind : GeometryKind) (g : Expr Float) :
    emulate? kind .boundingBox [g] = some (emulateBoundingBox kind g) := by
  cases kind <;> rfl

/-- The box around a literal is a polygon. -/
theorem emulate?_boundingBox_literal {b : Bounds Float} {value : Literal Float}
    (h : value.bounds? = some (some b)) (kind : GeometryKind) :
    emulate? kind .boundingBox [.literal value] = some (.value (polygon (.rectangle b))) := by
  have hbounds : (literal? (.literal value)).bind Literal.bounds? = some (some b) := h
  have hbox : ¬ isBox (.literal value) = true := Bool.false_ne_true
  rw [emulate?_boundingBox, emulateBoundingBox, if_neg hbox, hbounds]

/-- The box around an operand that is no literal, with numbers for its sides, is the text through
them. -/
theorem emulate?_boundingBox_of_sides {b : Bounds Float} {kind : GeometryKind} {g : Expr Float}
    (hbox : g.isBox = false) (hliteral : g.literal? = none)
    (hsides : ∀ side, resolvedBound kind side g = number (side.of b)) :
    emulate? kind .boundingBox [g] = some (.wkt .polygon (text b.fiveCorners.wkt)) := by
  rw [emulate?_boundingBox, emulateBoundingBox, if_neg (Bool.eq_false_iff.mp hbox), hliteral]
  simp only [Option.bind_none, hsides]
  exact congrArg (fun e => some (Emulated.wkt .polygon e)) (rectangleText_number b)

/-- The boxes of two operands with the same four sides, one of them a literal and the other not. The
literal has a polygon for its box, the other operand a text through the four corners and the first
again, and the text of the polygon is the same exactly if the box has a height: else it lacks the
fifth corner. -/
theorem boundingBox_texts_agree_iff (b : Bounds Float) (hx : b.minX ≤ b.maxX)
    (hy : b.minY ≤ b.maxY) :
    rectangleText (number b.minX) (number b.minY) (number b.maxX) (number b.maxY) =
      text b.fiveCorners.wkt ∧
    ((Polygon.rectangle b).wkt = b.fiveCorners.wkt ↔ b.minY < b.maxY) ∧
    (¬ b.minY < b.maxY → (Polygon.rectangle b).wkt = (Polygon.mk b.corners).wkt) ∧
    (∀ (kind : GeometryKind) (value : Literal Float), value.bounds? = some (some b) →
      emulate? kind .boundingBox [.literal value] = some (.value (polygon (.rectangle b)))) ∧
    (∀ (kind : GeometryKind) (g : Expr Float), g.isBox = false → g.literal? = none →
      (∀ side, resolvedBound kind side g = number (side.of b)) →
      emulate? kind .boundingBox [g] = some (.wkt .polygon (text b.fiveCorners.wkt))) := by
  have htext := Bounds.wkt_rectangle hx hy
  refine ⟨rectangleText_number b, ⟨?_, fun hlt => htext.trans (if_pos hlt)⟩,
    fun hflat => htext.trans (if_neg hflat), fun kind _ hbounds =>
    emulate?_boundingBox_literal hbounds kind, fun _ _ => emulate?_boundingBox_of_sides⟩
  intro hfive
  by_contra hflat
  rw [if_neg hflat] at htext
  exact Bounds.wkt_corners_ne b (htext.symm.trans hfive)

/-- The ends of a horizontal line. -/
def levelEnds : List (Point Float) := [⟨0, 1⟩, ⟨2, 1⟩]

/-- The box around it. -/
def levelBox : Bounds Float := ⟨0, 1, 2, 1⟩

/-- A level box is ordered, but has no height. -/
theorem levelBox_ordered :
    levelBox.minX ≤ levelBox.maxX ∧ levelBox.minY ≤ levelBox.maxY ∧
      ¬ levelBox.minY < levelBox.maxY := by
  decide +kernel

/-- A horizontal line has two boxes: as a literal it has four corners, and as a construction from its
points it has five. -/
theorem boundingBox_texts_agree_iff_levelBox :
    (levelBox.minX ≤ levelBox.maxX ∧ levelBox.minY ≤ levelBox.maxY) ∧
    emulate? .line .boundingBox [.literal (.line ⟨levelEnds⟩)] =
      some (.value (polygon (.rectangle levelBox))) ∧
    emulate? .line .boundingBox [construct .line (levelEnds.map point)] =
      some (.wkt .polygon (text levelBox.fiveCorners.wkt)) ∧
    (Polygon.rectangle levelBox).wkt ≠ levelBox.fiveCorners.wkt := by
  obtain ⟨hx, hy, hflat⟩ := levelBox_ordered
  obtain ⟨-, hagree, -, hliteral, hother⟩ := boundingBox_texts_agree_iff levelBox hx hy
  refine ⟨⟨hx, hy⟩, hliteral .line _ ?_, hother .line _ rfl rfl ?_, hflat ∘ hagree.mp⟩
  · decide +kernel
  · have hsides : Decimal.lesser 0 2 = 0 ∧ Decimal.larger 0 2 = 2 ∧
        Decimal.lesser 1 1 = 1 ∧ Decimal.larger 1 1 = 1 := by
      decide +kernel
    rintro ⟨_ | _, _ | _⟩
    · exact congrArg number hsides.2.1
    · exact congrArg number hsides.1
    · exact congrArg number hsides.2.2.2
    · exact congrArg number hsides.2.2.1

/-- The text of the polygon of a box is not always the text through its sides. -/
theorem not_forall_boundingBox_texts_agree :
    ¬ ∀ b : Bounds Float, b.minX ≤ b.maxX → b.minY ≤ b.maxY →
      rectangleText (number b.minX) (number b.minY) (number b.maxX) (number b.maxY) =
        text (Polygon.rectangle b).wkt := by
  intro hall
  obtain ⟨hx, hy, hflat⟩ := levelBox_ordered
  have hsame := (rectangleText_number levelBox).symm.trans (hall levelBox hx hy)
  have htext : levelBox.fiveCorners.wkt = (Polygon.mk levelBox.corners).wkt :=
    (Literal.text.inj (Expr.literal.inj hsame)).trans
      ((Bounds.wkt_rectangle hx hy).trans (if_neg hflat))
  exact Bounds.wkt_corners_ne levelBox htext.symm

end Emulation

end SpatialSql
