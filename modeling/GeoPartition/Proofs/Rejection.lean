import GeoPartition.Proofs.Geo.Ends
import GeoPartition.Proofs.Partitioner

/-!
# Shapes with an invalid vertex

Only the corners of the bounding box of a shape are checked. An invalid number is carried to one of
them from wherever it is, as it is above or below every valid one. What is not a number is neither:
it stays at a corner if it is there from the start, and is passed over if it comes later in a run.

**Theorem (`bad_vertex_rejected_iff`).** A shape with an invalid vertex is rejected, unless its
vertices *hide* it: they are run through in a list of which the first is valid, all other numbers
are valid, and something behind the first is not a number. Then the shape has a bucket all the same.

The corners of the box are valid exactly if the first vertex is and no later number is invalid
(`Rect.bounding?_valid_iff`). The theorem compares that with the validity of all vertices.
-/

namespace GeoPartition

open Binary64
open Coordinate (checkAxis checkAxis_ok_iff check_ok_iff)

theorem Coordinate.checkAxis_nan (axis : Axis) : checkAxis axis nan ≠ .ok () := by
  cases axis <;> decide

/-! ## The ends of an extent -/

namespace Extent

variable {axis : Axis}

/-- Are both ends valid? -/
def Passes (axis : Axis) (e : Extent) : Prop :=
  checkAxis axis e.lo = .ok () ∧ checkAxis axis e.hi = .ok ()

theorem ofEnds_passes_iff {a b : Binary64} :
    (ofEnds a b).Passes axis ↔ checkAxis axis a = .ok () ∧ checkAxis axis b = .ok () := by
  unfold ofEnds Passes
  split_ifs
  · rfl
  · exact and_comm

/-- What lies between valid ends is valid. -/
theorem Passes.checkAxis_of_contains {e : Extent} (he : e.Passes axis) {v : Binary64}
    (hv : e.Contains v) : checkAxis axis v = .ok () := by
  obtain ⟨hlo, hhi⟩ := he
  exact checkAxis_ok_iff.2 ⟨le_trans (checkAxis_ok_iff.1 hlo).1 hv.1,
    le_trans hv.2 (checkAxis_ok_iff.1 hhi).2⟩

/-- **The ends of a run** are valid exactly if the first number is, and the others are valid or not
numbers at all. -/
theorem span_passes_iff {first : Binary64} {rest : List Binary64} :
    (span first rest).Passes axis ↔
      checkAxis axis first = .ok () ∧ ∀ v ∈ rest, v = nan ∨ checkAxis axis v = .ok () := by
  by_cases hfirst : first = nan
  · subst hfirst
    have hnan := Coordinate.checkAxis_nan axis
    rw [span_nan]
    exact iff_of_false (fun h => hnan h.1) fun h => hnan h.1
  · -- Without what is not a number, the run has the same extent and holds all that is left.
    have hspan : span first rest = span first (rest.filter (· ≠ nan)) := by
      rw [span, span, foldl_extend_filter]
    have hnumbers : ∀ v ∈ first :: rest.filter (· ≠ nan), v ≠ nan := by
      intro v hv
      rcases List.mem_cons.1 hv with rfl | hv
      · exact hfirst
      · simpa using (List.mem_filter.1 hv).2
    rw [hspan]
    constructor
    · intro h
      have hvalid : ∀ v ∈ first :: rest.filter (· ≠ nan), checkAxis axis v = .ok () :=
        fun v hv => h.checkAxis_of_contains ((span_isRangeOf hnumbers).contains v hv)
      refine ⟨hvalid first List.mem_cons_self, fun v hv => ?_⟩
      by_cases hv' : v = nan
      · exact .inl hv'
      · have hmem : v ∈ rest.filter (· ≠ nan) := List.mem_filter.2 ⟨hv, by simpa using hv'⟩
        exact .inr (hvalid v (List.mem_cons_of_mem _ hmem))
    · rintro ⟨hvalid, hrest⟩
      refine span_ends (P := fun v => checkAxis axis v = .ok ()) ?_
      intro v hv
      rcases List.mem_cons.1 hv with rfl | hv'
      · exact hvalid
      · exact (hrest v (List.mem_filter.1 hv').1).resolve_left (hnumbers v hv)

end Extent

/-! ## The corners of a box -/

namespace Coordinate

/-- Does a coordinate behind the first leave the corners valid? What is not a number does. -/
def PassesRun (c : Coordinate) : Prop :=
  (c.lon = nan ∨ checkAxis .longitude c.lon = .ok ()) ∧
    (c.lat = nan ∨ checkAxis .latitude c.lat = .ok ())

theorem check_ok_iff_passesRun {c : Coordinate} :
    c.check = .ok () ↔ c.PassesRun ∧ c.IsNumber := by
  rw [check_ok_iff]
  constructor
  · rintro ⟨hlon, hlat⟩
    refine ⟨⟨.inr hlon, .inr hlat⟩, ?_, ?_⟩
    · rintro h
      exact checkAxis_nan _ (h ▸ hlon)
    · rintro h
      exact checkAxis_nan _ (h ▸ hlat)
  · rintro ⟨⟨hlon, hlat⟩, hnlon, hnlat⟩
    exact ⟨hlon.resolve_left hnlon, hlat.resolve_left hnlat⟩

/-- Is there something that a run passes over, among vertices that are valid otherwise? -/
def HidesNan : List Coordinate → Prop
  | [] => False
  | first :: rest =>
    first.check = .ok () ∧ (∀ c ∈ rest, c.PassesRun) ∧ ∃ c ∈ rest, ¬c.IsNumber

end Coordinate

namespace Rect

/-- Are the corners that are encoded valid? -/
def Valid (r : Rect) : Prop := r.bottomLeft.check = .ok () ∧ r.topRight.check = .ok ()

theorem valid_iff {r : Rect} : r.Valid ↔ r.lon.Passes .longitude ∧ r.lat.Passes .latitude := by
  rw [Valid, check_ok_iff, check_ok_iff]
  exact and_and_and_comm

theorem ofCorners_valid_iff {a b : Coordinate} :
    (ofCorners a b).Valid ↔ a.check = .ok () ∧ b.check = .ok () := by
  rw [valid_iff, ofCorners, Extent.ofEnds_passes_iff, Extent.ofEnds_passes_iff, check_ok_iff,
    check_ok_iff]
  exact and_and_and_comm

/-- **The corners of a bounding box** are valid exactly if the first vertex is, and no number behind
it is invalid. -/
theorem bounding?_valid_iff {first : Coordinate} {rest : List Coordinate} :
    (∃ r, bounding? (first :: rest) = some r ∧ r.Valid) ↔
      first.check = .ok () ∧ ∀ c ∈ rest, c.PassesRun := by
  have hbox : (∃ r, bounding? (first :: rest) = some r ∧ r.Valid) ↔
      Valid ⟨.span first.lon (rest.map (·.lon)), .span first.lat (rest.map (·.lat))⟩ := by
    simp [bounding?]
  rw [hbox, valid_iff, Extent.span_passes_iff, Extent.span_passes_iff, check_ok_iff,
    and_and_and_comm, List.forall_mem_map, List.forall_mem_map]
  simp only [Coordinate.PassesRun, forall_and]

/-- All four corners. -/
def corners (r : Rect) : List Coordinate :=
  [r.bottomLeft, ⟨r.lon.hi, r.lat.lo⟩, r.topRight, ⟨r.lon.lo, r.lat.hi⟩]

/-- The two corners that are encoded have all numbers of the other two. -/
theorem valid_iff_corners {r : Rect} : r.Valid ↔ ∀ c ∈ r.corners, c.check = .ok () := by
  simp only [corners, List.forall_mem_cons, check_ok_iff, Valid, bottomLeft, topRight]
  constructor
  · rintro ⟨⟨h1, h2⟩, h3, h4⟩
    exact ⟨⟨h1, h2⟩, ⟨h3, h2⟩, ⟨h3, h4⟩, ⟨h1, h4⟩, fun c hc => absurd hc List.not_mem_nil⟩
  · rintro ⟨h1, -, h3, -⟩
    exact ⟨h1, h3⟩

end Rect

/-- **Hidden vertices.** The vertices of a list hide something exactly if the corners of their box
are valid and one of them is not. -/
theorem Coordinate.hidesNan_iff {cs : List Coordinate} :
    HidesNan cs ↔
      (∃ r, Rect.bounding? cs = some r ∧ r.Valid) ∧ ∃ c ∈ cs, c.check ≠ .ok () := by
  cases cs with
  | nil => simp [HidesNan]
  | cons first rest =>
    rw [Rect.bounding?_valid_iff, HidesNan, and_assoc]
    refine and_congr_right fun hfirst => and_congr_right fun hrest => ?_
    constructor
    · rintro ⟨c, hc, hnan⟩
      exact ⟨c, List.mem_cons_of_mem _ hc, fun h => hnan (check_ok_iff_passesRun.1 h).2⟩
    · rintro ⟨c, hc, hbad⟩
      rcases List.mem_cons.1 hc with rfl | hc
      · exact absurd hfirst hbad
      · exact ⟨c, hc, fun h => hbad (check_ok_iff_passesRun.2 ⟨hrest c hc, h⟩)⟩

/-! ## Shapes -/

namespace Shape

/-- The corners of a shape of one part. -/
def corners : Shape → List Coordinate
  | rect r => r.corners
  | s => s.vertices

/-- The vertices that are run through for the bounding box of a shape. The box of a point, a line
or a rectangle is made of corners. -/
def scanned : Shape → List Coordinate
  | lineString cs => cs
  | polygon p => p.exterior
  | triangle a b c => [a, b, c]
  | _ => []

theorem boundingRect?_ne_none {s : Shape} {v : Coordinate} (h : v ∈ s.corners) :
    s.boundingRect? ≠ none := by
  have hbox {s : Shape} (hs : s.vertices ≠ []) : s.boundingRect? ≠ none := by
    obtain ⟨r, hr⟩ := exists_boundingRect? hs
    rw [hr]
    exact Option.some_ne_none r
  cases s with
  | rect r => exact Option.some_ne_none r
  | multiPoint _ | multiLineString _ | multiPolygon _ | collection _ =>
    exact absurd h List.not_mem_nil
  | point _ | line _ _ | lineString _ | polygon _ | triangle _ _ _ =>
    exact hbox (List.ne_nil_of_mem h)

/-- A shape hides something exactly if its box has valid corners and one of its own is invalid. -/
theorem hidesNan_scanned_iff {s : Shape} :
    Coordinate.HidesNan s.scanned ↔
      (∃ r, s.boundingRect? = some r ∧ r.Valid) ∧ ∃ v ∈ s.corners, v.check ≠ .ok () := by
  cases s with
  | point c =>
    simp [scanned, boundingRect?, corners, vertices, Coordinate.HidesNan, Rect.ofCorners_valid_iff]
  | line a b =>
    simp [scanned, boundingRect?, corners, vertices, Coordinate.HidesNan, Rect.ofCorners_valid_iff]
  | rect r =>
    simp [scanned, boundingRect?, corners, Coordinate.HidesNan, Rect.valid_iff_corners]
  | lineString cs => exact Coordinate.hidesNan_iff
  | polygon p => exact Coordinate.hidesNan_iff
  | triangle a b c => exact Coordinate.hidesNan_iff
  | _ => simp [scanned, boundingRect?, Coordinate.HidesNan]

end Shape

namespace Partitioner

variable {p : Partitioner} {s : Shape}

theorem exists_bucketOfShape_iff :
    (∃ b, p.bucketOfShape s = .ok (some b)) ↔ ∃ r, s.boundingRect? = some r ∧ r.Valid := by
  simp only [bucketOfShape_eq_some_iff, bucketOfRect_eq_ok_iff, Rect.Valid]
  constructor
  · rintro ⟨b, r, hr, hlo, hhi, -⟩
    exact ⟨r, hr, hlo, hhi⟩
  · rintro ⟨r, hr, hlo, hhi⟩
    exact ⟨_, r, hr, hlo, hhi, rfl⟩

/-- **A shape with an invalid vertex is rejected**, unless its vertices hide it; and the vertices of
a shape with a bucket are valid, unless they hide one that is not. -/
theorem bad_vertex_rejected_iff (p : Partitioner) (s : Shape) :
    (((∃ v ∈ s.corners, v.check ≠ .ok ()) → ∃ e, p.bucketOfShape s = .error e) ↔
      ¬Coordinate.HidesNan s.scanned) ∧
    ((∀ b, p.bucketOfShape s = .ok (some b) → ∀ v ∈ s.corners, v.check = .ok ()) ↔
      ¬Coordinate.HidesNan s.scanned) := by
  rw [Shape.hidesNan_scanned_iff, ← exists_bucketOfShape_iff (p := p)]
  constructor
  · constructor
    · rintro h ⟨⟨b, hb⟩, hbad⟩
      obtain ⟨e, he⟩ := h hbad
      cases hb.symm.trans he
    · intro h hbad
      cases hs : p.bucketOfShape s with
      | error e => exact ⟨e, rfl⟩
      | ok o =>
        cases o with
        | none =>
          obtain ⟨v, hv, -⟩ := hbad
          exact absurd (bucketOfShape_eq_none_iff.1 hs) (Shape.boundingRect?_ne_none hv)
        | some b => exact absurd ⟨⟨b, hs⟩, hbad⟩ h
  · constructor
    · rintro h ⟨⟨b, hb⟩, v, hv, hbad⟩
      exact hbad (h b hb v hv)
    · intro h b hb v hv
      by_contra hbad
      exact h ⟨⟨b, hb⟩, v, hv, hbad⟩

/-- A path with something in the middle that is not a number. -/
def brokenPath : Shape :=
  .lineString [⟨.ofNat 5, .ofNat 5⟩, ⟨nan, .ofNat 6⟩, ⟨.ofNat 7, .ofNat 7⟩]

set_option maxRecDepth 4000 in
/-- The broken path is filed, though the line from its first vertex to the next is rejected. -/
theorem bad_vertex_hidden :
    (∃ v ∈ brokenPath.corners, v.check = .error (.notFinite .longitude nan)) ∧
    bucketOfShape ⟨3, by decide, by decide⟩ brokenPath = .ok (some (.cell ['s'])) ∧
    bucketOfShape ⟨3, by decide, by decide⟩ (.line ⟨.ofNat 5, .ofNat 5⟩ ⟨nan, .ofNat 6⟩) =
      .error (.notFinite .longitude nan) := by
  refine ⟨⟨⟨nan, .ofNat 6⟩, ?_, by decide⟩, by decide, by decide⟩
  exact List.mem_cons_of_mem _ List.mem_cons_self

end Partitioner

end GeoPartition
