import GeoPartition.Proofs.Partitioner

/-!
# A bucket holds all of its box

Only the corners of a box are encoded, but the bucket speaks about everything between them.

**Theorem (`bucket_holds_box`).** Let the corners of a box be valid and in order. Then the box has a
bucket, and for every coordinate in the box: if the bucket is a cell, the code of the coordinate
begins with its symbols; if it is a region, the quadrant of the coordinate is one that the region
names. The same holds of the vertices of a shape.

For cells this is betweenness of codes. For regions it is the order of the halves of the globe on
each axis, which leaves nine of the sixteen pairs of quadrants: the corners of a box are in one
quadrant, or in one of the pairs that span a half of the globe or all of it.
-/

namespace GeoPartition

open Geohash (code code_between take_code quadrant isUpper_mono ofSymbol?_head?_code
  mem_alphabet_of_mem_code)

/-- Does a code lie in the cell, or in one of the quadrants, that a bucket names? -/
def Bucket.Holds : Bucket → Code → Prop
  | cell symbols, s => symbols <+: s
  | region r, s => ∃ q ∈ r.quadrants, s.head?.bind Quadrant.ofSymbol? = some q
  | unclassified, _ => False

namespace Partitioner

variable {p : Partitioner} {a b c : Coordinate}

theorem bucketBetween_eq (p : Partitioner) (a c : Coordinate) :
    p.bucketBetween a c =
      if (code p.precision a).head? = (code p.precision c).head? then
        .cell (commonPrefix (code p.precision a) (code p.precision c))
      else if (code p.precision a).head? = some '0' ∧ (code p.precision c).head? = some 'z' then
        .region .global
      else .region (Cover.regionOfQuadrants (quadrant a) (some (quadrant c))) :=
  Bucket.ofCodes_eq (fun _ => mem_alphabet_of_mem_code) (fun _ => mem_alphabet_of_mem_code)
    (ofSymbol?_head?_code p.one_le a) (ofSymbol?_head?_code p.one_le c)

theorem bucketBetween_ne_unclassified (p : Partitioner) (a c : Coordinate) :
    p.bucketBetween a c ≠ .unclassified := by
  rw [bucketBetween_eq]
  split_ifs <;> simp

section between

variable (ha : a.Encodes) (hb : b.Encodes) (hc : c.Encodes) (hab : a.Le b) (hbc : b.Le c)

include ha hb hc hab hbc

/-- What two codes share begins every code between them. -/
theorem commonPrefix_code_prefix {n : ℕ} (hn : n ≤ 12) :
    commonPrefix (code n a) (code n c) <+: code n b := by
  set s := commonPrefix (code n a) (code n c)
  have hsa : s <+: code n a := commonPrefix_prefix_left _ _
  have hsc : s <+: code n c := commonPrefix_prefix_right _ _
  have hlen : s.length ≤ n := by simpa [Geohash.length_code] using hsa.length_le
  have ha' : s = code s.length a := by
    rw [← take_code hlen]
    exact List.prefix_iff_eq_take.1 hsa
  have hc' : s = code s.length c := by
    rw [← take_code hlen]
    exact List.prefix_iff_eq_take.1 hsc
  have hb' : s = code s.length b :=
    ha'.trans (code_between ha hb hc hab hbc (hlen.trans hn) (ha'.symm.trans hc'))
  rw [hb', ← take_code hlen b]
  exact List.take_prefix _ _

theorem quadrant_mem_regionOfQuadrants :
    quadrant b ∈ (Cover.regionOfQuadrants (quadrant a) (some (quadrant c))).quadrants :=
  Cover.mem_quadrants_regionOfQuadrants (isUpper_mono ha.1 hb.1 hab.1)
    (isUpper_mono hb.1 hc.1 hbc.1) (isUpper_mono ha.2 hb.2 hab.2) (isUpper_mono hb.2 hc.2 hbc.2)

/-- **Containment between encoded corners.** -/
theorem bucketBetween_holds (p : Partitioner) :
    (p.bucketBetween a c).Holds (code p.precision b) := by
  have hq := ofSymbol?_head?_code p.one_le b
  rw [bucketBetween_eq]
  split_ifs
  · exact commonPrefix_code_prefix ha hb hc hab hbc p.le_max
  · exact ⟨quadrant b, Quadrant.mem_all _, hq⟩
  · exact ⟨quadrant b, quadrant_mem_regionOfQuadrants ha hb hc hab hbc, hq⟩

end between

/-- A coordinate in a box with a bucket has a code, and the bucket holds it. -/
theorem encode_of_contains {r : Rect} {b : Bucket} (h : p.bucketOfRect r = .ok b)
    (hc : r.Contains c) : ∃ s, p.encode c = .ok s ∧ b.Holds s := by
  obtain ⟨hlo, hhi, rfl⟩ := bucketOfRect_eq_ok_iff.1 h
  have hcheck := Coordinate.check_ok_of_le_of_le hlo hhi hc.1 hc.2
  refine ⟨_, encode_of_check hcheck, ?_⟩
  exact bucketBetween_holds (Coordinate.encodes_clamp hlo) (Coordinate.encodes_clamp hcheck)
    (Coordinate.encodes_clamp hhi) (Coordinate.clamp_le_clamp hc.1)
    (Coordinate.clamp_le_clamp hc.2) p

theorem bucketOfRect_ne_unclassified {r : Rect} {b : Bucket} (h : p.bucketOfRect r = .ok b) :
    b ≠ .unclassified := by
  obtain ⟨-, -, rfl⟩ := bucketOfRect_eq_ok_iff.1 h
  exact bucketBetween_ne_unclassified p _ _

/-- The corners of a box are in one quadrant, or in a pair of quadrants with a region of its own. -/
theorem quadrants_of_corners {r : Rect} {s t : Code} (hs : p.encode r.bottomLeft = .ok s)
    (ht : p.encode r.topRight = .ok t) (hr : r.bottomLeft.Le r.topRight) :
    ∃ q q', s.head?.bind Quadrant.ofSymbol? = some q ∧ t.head?.bind Quadrant.ofSymbol? = some q' ∧
      (Cover.regionOfQuadrants q (some q') = .quadrant q → q' = q) := by
  obtain ⟨hlo, rfl⟩ := encode_eq_ok_iff.1 hs
  obtain ⟨hhi, rfl⟩ := encode_eq_ok_iff.1 ht
  have hle := Coordinate.clamp_le_clamp hr
  have hlo' := Coordinate.encodes_clamp hlo
  have hhi' := Coordinate.encodes_clamp hhi
  refine ⟨_, _, ofSymbol?_head?_code p.one_le _, ofSymbol?_head?_code p.one_le _, ?_⟩
  exact Cover.eq_of_regionOfQuadrants_eq_quadrant (isUpper_mono hlo'.1 hhi'.1 hle.1)
    (isUpper_mono hlo'.2 hhi'.2 hle.2)

/-- **A bucket holds all of its box**: the box with valid corners in order has a bucket, which is
never unclassified and holds the code of every valid coordinate in the box; a pair of quadrants that
spans no region does not occur at its corners. The bucket of a shape with valid vertices holds the
codes of the vertices. -/
theorem bucket_holds_box (p : Partitioner) :
    (∀ r : Rect, r.bottomLeft.check = .ok () → r.topRight.check = .ok () →
      r.bottomLeft.Le r.topRight →
      ∃ b, p.bucketOfRect r = .ok b ∧ b ≠ .unclassified ∧
        (∀ c : Coordinate, c.check = .ok () → r.Contains c →
          ∃ s, p.encode c = .ok s ∧ b.Holds s) ∧
        ∀ s t, p.encode r.bottomLeft = .ok s → p.encode r.topRight = .ok t →
          ∃ q q', s.head?.bind Quadrant.ofSymbol? = some q ∧
            t.head?.bind Quadrant.ofSymbol? = some q' ∧
            (Cover.regionOfQuadrants q (some q') = .quadrant q → q' = q)) ∧
    ∀ (x : Shape) (b : Bucket), (∀ v ∈ x.vertices, v.check = .ok ()) →
      p.bucketOfShape x = .ok (some b) →
      b ≠ .unclassified ∧ ∀ v ∈ x.vertices, ∃ s, p.encode v = .ok s ∧ b.Holds s := by
  refine ⟨fun r hlo hhi hr => ?_, fun x b hx hb => ?_⟩
  · have hb : p.bucketOfRect r = .ok _ := bucketOfRect_eq_ok_iff.2 ⟨hlo, hhi, rfl⟩
    exact ⟨_, hb, bucketOfRect_ne_unclassified hb, fun c _ hc => encode_of_contains hb hc,
      fun s t hs ht => quadrants_of_corners hs ht hr⟩
  · obtain ⟨r, hr, hb⟩ := bucketOfShape_eq_some_iff.1 hb
    exact ⟨bucketOfRect_ne_unclassified hb,
      fun v hv => encode_of_contains hb (Shape.boundingRect?_contains hr hx v hv)⟩

/-- A box over the prime meridian, north of the equator. -/
def northernBox : Rect :=
  ⟨⟨.ofDecimal true 10 0, .ofDecimal false 10 0⟩, ⟨.ofDecimal false 10 0, .ofDecimal false 20 0⟩⟩

/-- A place in the northern box. -/
def northernPlace : Coordinate := ⟨.ofDecimal false 5 (-1), .ofDecimal false 15 0⟩

/-- A path between the corners of the northern box by way of the place in it. -/
def northernPath : Shape :=
  .lineString [northernBox.bottomLeft, northernPlace, northernBox.topRight]

set_option maxRecDepth 2000 in
theorem bucket_holds_northernBox :
    (northernBox.bottomLeft.check = .ok () ∧ northernBox.topRight.check = .ok () ∧
      northernBox.bottomLeft.Le northernBox.topRight ∧ northernPlace.check = .ok () ∧
      northernBox.Contains northernPlace ∧ (∀ v ∈ northernPath.vertices, v.check = .ok ()) ∧
      bucketOfShape ⟨3, by decide, by decide⟩ northernPath = .ok (some (.region .north))) ∧
    (∃ b, bucketOfRect ⟨3, by decide, by decide⟩ northernBox = .ok b ∧ b ≠ .unclassified ∧
      ∃ s, encode ⟨3, by decide, by decide⟩ northernPlace = .ok s ∧ b.Holds s) ∧
    ∀ v ∈ northernPath.vertices, ∃ s, encode ⟨3, by decide, by decide⟩ v = .ok s ∧
      Bucket.Holds (.region .north) s := by
  have hlo : northernBox.bottomLeft.check = .ok () := by decide
  have hhi : northernBox.topRight.check = .ok () := by decide
  have hr : northernBox.bottomLeft.Le northernBox.topRight :=
    ⟨by decide, by decide⟩
  have hplace : northernPlace.check = .ok () := by decide
  have hin : northernBox.Contains northernPlace :=
    ⟨⟨by decide, by decide⟩, ⟨by decide, by decide⟩⟩
  have hpath : ∀ v ∈ northernPath.vertices, v.check = .ok () := by decide
  have hbucket : bucketOfShape ⟨3, by decide, by decide⟩ northernPath =
      .ok (some (.region .north)) := by decide
  obtain ⟨hrect, hshape⟩ := bucket_holds_box ⟨3, by decide, by decide⟩
  refine ⟨⟨hlo, hhi, hr, hplace, hin, hpath, hbucket⟩, ?_, (hshape _ _ hpath hbucket).2⟩
  obtain ⟨b, hb, hne, hholds, -⟩ := hrect northernBox hlo hhi hr
  exact ⟨b, hb, hne, hholds northernPlace hplace hin⟩

end Partitioner

end GeoPartition
