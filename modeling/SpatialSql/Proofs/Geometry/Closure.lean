import SpatialSql.Json.Document
import SpatialSql.Proofs.Meaning.Constructions
import SpatialSql.Proofs.Planar.Relations

/-!
# Closed rings

Areas, edges and containment take for granted that a ring ends where it starts. Every polygon
that is made of points, of another geometry or of a box has such a ring, since its points pass
through `Polygon.closeRing`, and making a polygon of that ring again changes nothing. A document
is not made but read: its ring has the points that are listed, few or many and closed or not. That
a reader keeps what is listed is all that is asked of it, and the one for JSON does.
-/

namespace SpatialSql

/-- The points end with one that compares equal to the first. -/
def EndsMeet (points : List (Point Float)) : Prop :=
  ∃ first last, points.head? = some first ∧ points.getLast? = some last ∧ (first == last) = true

namespace Polygon

variable {p : Polygon Float} {points : List (Point Float)}

/-- The ring has at least three points and ends where it starts, and a polygon made of its points is
the same polygon. -/
structure Sealed (p : Polygon Float) : Prop where
  three_le : 3 ≤ p.ring.length
  ends_meet : EndsMeet p.ring
  kept : ofPoints? p.ring = some p

/-- A ring that ends where it starts is left as it is. -/
theorem closeRing_of_endsMeet (h : EndsMeet points) : closeRing points = points := by
  obtain ⟨first, last, hfirst, hlast, heq⟩ := h
  rw [closeRing_eq hfirst hlast, if_pos heq]

/-- Closing a ring keeps its first point. -/
theorem head?_closeRing (points : List (Point Float)) : (closeRing points).head? = points.head? := by
  cases points with
  | nil => rfl
  | cons first rest =>
    rw [closeRing]
    split <;> rfl

/-- A ring that was closed ends where it starts, unless that point is undefined. -/
theorem endsMeet_closeRing (hne : points ≠ []) (hd : ∀ v ∈ closeRing points, v.Defined) :
    EndsMeet (closeRing points) := by
  obtain ⟨first, hfirst⟩ := Option.ne_none_iff_exists'.mp (mt List.head?_eq_none_iff.mp hne)
  obtain ⟨last, hlast⟩ := Option.ne_none_iff_exists'.mp (mt List.getLast?_eq_none_iff.mp hne)
  have hhead : (closeRing points).head? = some first := (head?_closeRing points).trans hfirst
  have hself : (first == first) = true :=
    (Point.Alike.refl first).beq (hd first (List.mem_of_head? hhead))
  rw [closeRing_eq hfirst hlast] at hhead ⊢
  split
  · next heq => exact ⟨first, last, hfirst, hlast, heq⟩
  · next hne =>
    rw [if_neg hne] at hhead
    exact ⟨first, first, hhead, List.getLast?_concat, hself⟩

/-- Making a polygon of the ring again is no condition of its own. -/
theorem sealed_iff : p.Sealed ↔ 3 ≤ p.ring.length ∧ EndsMeet p.ring := by
  refine ⟨fun h => ⟨h.three_le, h.ends_meet⟩, fun ⟨hlength, hends⟩ => ⟨hlength, hends, ?_⟩⟩
  rw [ofPoints?, if_neg (Nat.not_lt.mpr hlength), closeRing_of_endsMeet hends]

/-- A polygon that is made of points is sealed, unless a coordinate is undefined. -/
theorem sealed_of_ofPoints? (h : ofPoints? points = some p) (hd : ∀ v ∈ p.ring, v.Defined) :
    p.Sealed := by
  refine sealed_iff.mpr ⟨Planar.three_le_length_of_ofPoints? h, ?_⟩
  rw [ofPoints?] at h
  split at h
  · contradiction
  · next hlength =>
    obtain rfl := Option.some.inj h
    exact endsMeet_closeRing (List.ne_nil_of_length_pos (by omega)) hd

/-- A reader of polygons from documents of some form, with the items it finds under the ring. -/
structure Reader (Doc Item : Type) where
  /-- The polygon that is read from a document, if any. -/
  read? : Doc → Option (Polygon Float)
  /-- The items that a document lists for the ring. -/
  listed? : Doc → Option (List Item)

namespace Reader

variable {Doc Item : Type} {r : Reader Doc Item} {point? : Item → Option (Point Float)}

/-- What a derived reader does: the ring it reads has the point of each listed item, in order, and no
other one. -/
def Keeps (r : Reader Doc Item) (point? : Item → Option (Point Float)) : Prop :=
  ∀ document p, r.read? document = some p → ∃ items, r.listed? document = some items ∧
    List.Forall₂ (fun item v => point? item = some v) items p.ring

/-- A polygon that is read is sealed exactly if the listed points are three or more and end where they
start. -/
theorem Keeps.sealed_iff (hr : r.Keeps point?) {document : Doc} {items : List Item}
    (hread : r.read? document = some p) (hlisted : r.listed? document = some items) :
    List.Forall₂ (fun item v => point? item = some v) items p.ring ∧
      (p.Sealed ↔ 3 ≤ items.length ∧ EndsMeet p.ring) := by
  obtain ⟨items', hitems, hpoints⟩ := hr document p hread
  obtain rfl := Option.some.inj (hitems.symm.trans hlisted)
  exact ⟨hpoints, by rw [Polygon.sealed_iff, hpoints.length_eq]⟩

/-- The reader of documents that hold one of the given form. -/
def within {Outer : Type} (r : Reader Doc Item) (content? : Outer → Option Doc) :
    Reader Outer Item where
  read? outer := (content? outer).bind r.read?
  listed? outer := (content? outer).bind r.listed?

/-- Unwrapping a document does not touch what it lists. -/
theorem Keeps.within {Outer : Type} (hr : r.Keeps point?) (content? : Outer → Option Doc) :
    (r.within content?).Keeps point? := by
  intro outer p hread
  obtain ⟨document, hdocument, hp⟩ := Option.bind_eq_some_iff.mp hread
  obtain ⟨items, hitems, hpoints⟩ := hr document p hp
  exact ⟨items, Option.bind_eq_some_iff.mpr ⟨document, hdocument, hitems⟩, hpoints⟩

end Reader

/-- The items under the ring of a document for a polygon. -/
def listed? (json : Json) : Option (List Json) :=
  match json.fields? ["ring"] with
  | some [some (.array items)] => some items
  | _ => none

/-- The items are documents for the points, one for each. -/
def Lists (items : List Json) (points : List (Point Float)) : Prop :=
  List.Forall₂ (fun item v => Point.ofJson? item = some v) items points

/-- Items are read as points one by one. -/
theorem mapM_ofJson?_eq_some_iff {items : List Json} :
    items.mapM Point.ofJson? = some points ↔ Lists items points := by
  unfold Lists
  induction items generalizing points with
  | nil => simp [eq_comm]
  | cons item items ih =>
    rw [List.forall₂_cons_left_iff, List.mapM_cons, Option.bind_eq_bind, Option.bind_eq_some_iff]
    constructor
    · rintro ⟨v, hv, hrest⟩
      obtain ⟨rest, hrest, heq⟩ := Option.bind_eq_some_iff.mp hrest
      exact ⟨v, rest, hv, ih.mp hrest, (Option.some.inj heq).symm⟩
    · rintro ⟨v, rest, hv, hrest, rfl⟩
      exact ⟨v, hv, Option.bind_eq_some_iff.mpr ⟨rest, ih.mpr hrest, rfl⟩⟩

/-- The points of a document for a polygon are those of the items under its ring. -/
theorem pointsOfJson?_ring (json : Json) :
    pointsOfJson? "ring" json = (listed? json).bind fun items => items.mapM Point.ofJson? := by
  unfold pointsOfJson? listed?
  cases json.fields? ["ring"] with
  | none => rfl
  | some fields =>
    cases fields with
    | nil => rfl
    | cons field others =>
      cases field with
      | none => rfl
      | some ring =>
        cases others with
        | nil => cases ring <;> rfl
        | cons _ _ => cases ring <;> rfl

/-- The reader of JSON documents. -/
def ofDocuments : Reader Json Json := ⟨ofJson?, listed?⟩

/-- A JSON document is read as the polygon with the listed points, whatever these are. -/
theorem keeps_ofDocuments : ofDocuments.Keeps Point.ofJson? := by
  intro json p hread
  change (pointsOfJson? "ring" json).map Polygon.mk = some p at hread
  rw [pointsOfJson?_ring] at hread
  obtain ⟨ring, hring, rfl⟩ := Option.map_eq_some_iff.mp hread
  obtain ⟨items, hitems, hpoints⟩ := Option.bind_eq_some_iff.mp hring
  exact ⟨items, hitems, mapM_ofJson?_eq_some_iff.mp hpoints⟩

end Polygon

/-- A way to obtain a polygon. -/
inductive Polygon.Source where
  | points (points : List (Point Float))
  | line (line : Line Float)
  | multiPoint (points : MultiPoint Float)
  | box (b : Bounds Float)
  | unitSquare
  /-- The text of a document for a polygon. -/
  | document (text : String)
  /-- The text of a document for a literal. -/
  | literal (text : String)

namespace Polygon.Source

/-- The content of a literal that is a polygon. -/
def content? (json : Json) : Option Json :=
  json.variant?.bind fun (name, content) => if name = "Polygon" then some content else none

/-- The polygon that is obtained, if any. -/
def polygon? : Source → Option (Polygon Float)
  | points list => Polygon.ofPoints? list
  | line l => Polygon.ofLine? l
  | multiPoint m => Polygon.ofMultiPoint? m
  | box b => some (Polygon.rectangle b)
  | unitSquare => some Polygon.unitSquare
  | document text => (Json.parse? text).bind Polygon.ofJson?
  | literal text =>
    ((Json.parse? text).bind Literal.ofJson?).bind fun value => (Expr.literal value).polygon?

/-- The items that are listed for the ring, if it is read from a document. -/
def listed? : Source → Option (List Json)
  | document text => (Json.parse? text).bind Polygon.listed?
  | literal text => ((Json.parse? text).bind content?).bind Polygon.listed?
  | _ => none

variable {source : Source} {p : Polygon Float}

/-- A literal is read as a polygon where its content is. -/
theorem bind_polygon?_ofJson? (json : Json) :
    ((Literal.ofJson? json).bind fun value => (Expr.literal value).polygon?) =
      (content? json).bind Polygon.ofJson? := by
  unfold Literal.ofJson? content?
  cases json.variant? with
  | none => rfl
  | some variant =>
    obtain ⟨name, content⟩ := variant
    simp only [Option.bind_eq_bind, Option.bind_some]
    split <;> simp_all [Expr.polygon?, Option.bind_map]

/-- Every polygon is either made of points or read, by a reader that keeps what is listed. -/
theorem made_or_read (h : source.polygon? = some p) :
    (source.listed? = none ∧ ∃ points, Polygon.ofPoints? points = some p) ∨
      ∃ (r : Reader String Json) (text : String), r.Keeps Point.ofJson? ∧ r.read? text = some p ∧
        r.listed? text = source.listed? := by
  cases source with
  | points list => exact .inl ⟨rfl, list, h⟩
  | line l => exact .inl ⟨rfl, l.points, h⟩
  | multiPoint m => exact .inl ⟨rfl, m.points, h⟩
  | box b => exact .inl ⟨rfl, b.corners, h⟩
  | unitSquare => exact .inl ⟨rfl, Bounds.corners _, h⟩
  | document text =>
    exact .inr ⟨ofDocuments.within Json.parse?, text, keeps_ofDocuments.within _, h, rfl⟩
  | literal text =>
    refine .inr ⟨(ofDocuments.within content?).within Json.parse?, text,
      (keeps_ofDocuments.within _).within _, ?_, (Option.bind_assoc ..).symm⟩
    rw [polygon?, Option.bind_assoc] at h
    simp only [bind_polygon?_ofJson?] at h
    exact h

/-- A polygon without undefined coordinates is sealed if it is made of points, of another geometry or
of a box. If it is read, its ring has the points that the document lists, and it is sealed exactly
if these are three or more and end where they start. -/
theorem sealed_iff_of_listed (source : Source) (p : Polygon Float) (h : source.polygon? = some p)
    (hd : ∀ v ∈ p.ring, v.Defined) :
    (source.listed? = none → p.Sealed) ∧
      ∀ items, source.listed? = some items →
        Polygon.Lists items p.ring ∧ (p.Sealed ↔ 3 ≤ items.length ∧ EndsMeet p.ring) := by
  obtain ⟨hmade, points, hp⟩ | ⟨r, text, hr, hread, hlisted⟩ := made_or_read h
  · refine ⟨fun _ => Polygon.sealed_of_ofPoints? hp hd, fun items hitems => ?_⟩
    rw [hmade] at hitems
    contradiction
  · refine ⟨fun hmade => ?_, fun items hitems => hr.sealed_iff hread (hlisted.trans hitems)⟩
    obtain ⟨items, hitems, -⟩ := hr text p hread
    rw [hlisted, hmade] at hitems
    contradiction

/-- A document for a literal with a ring that comes back to its first point, with a zero of the other
sign. -/
def closedCorner : Source :=
  .literal "\x7b\"Polygon\":\x7b\"ring\":[[0,0],[2,0],[2,2],[-0,0]]\x7d\x7d"

/-- The points it lists. -/
def closedCornerRing : List (Point Float) := [⟨0, 0⟩, ⟨2, 0⟩, ⟨2, 2⟩, ⟨-0, 0⟩]

/-- The ring that is listed ends where it starts, so the polygon is sealed as it is read. -/
theorem sealed_iff_of_listed_closedCorner :
    closedCorner.polygon? = some ⟨closedCornerRing⟩ ∧ (∀ v ∈ closedCornerRing, v.Defined) ∧
      closedCorner.listed?.isSome = true ∧ Sealed ⟨closedCornerRing⟩ := by
  have hread : closedCorner.polygon? = some ⟨closedCornerRing⟩ := by decide +kernel
  have hd : ∀ v ∈ closedCornerRing, v.Defined := by decide +kernel
  have hlisted : closedCorner.listed?.isSome = true := by decide +kernel
  have hmeet : EndsMeet closedCornerRing := ⟨⟨0, 0⟩, ⟨-0, 0⟩, rfl, rfl, by decide +kernel⟩
  refine ⟨hread, hd, hlisted, ?_⟩
  obtain ⟨items, hitems⟩ := Option.isSome_iff_exists.mp hlisted
  obtain ⟨hlists, hiff⟩ := (sealed_iff_of_listed closedCorner _ hread hd).2 items hitems
  refine hiff.mpr ⟨?_, hmeet⟩
  rw [hlists.length_eq]
  decide

/-- A document for three corners of a square that does not come back to the first one. -/
def openCorner : Source :=
  .document "\x7b\"ring\":[\x7b\"x\":0,\"y\":0\x7d,\x7b\"x\":2,\"y\":0\x7d,\x7b\"x\":2,\"y\":2\x7d]\x7d"

/-- The three corners are read as they are listed. -/
theorem polygon?_openCorner : openCorner.polygon? = some ⟨[⟨0, 0⟩, ⟨2, 0⟩, ⟨2, 2⟩]⟩ := by
  decide +kernel

/-- Not every polygon is sealed: a document can leave its ring open. -/
theorem not_forall_sealed :
    ¬ ∀ (source : Source) (p : Polygon Float), source.polygon? = some p →
      (∀ v ∈ p.ring, v.Defined) → p.Sealed := by
  intro hall
  have hd : ∀ v ∈ [(⟨0, 0⟩ : Point Float), ⟨2, 0⟩, ⟨2, 2⟩], v.Defined := by decide +kernel
  obtain ⟨first, last, hfirst, hlast, hmeet⟩ := (hall _ _ polygon?_openCorner hd).ends_meet
  obtain rfl := Option.some.inj hfirst
  obtain rfl := Option.some.inj hlast
  exact absurd hmeet (by decide +kernel)

end Polygon.Source

end SpatialSql
