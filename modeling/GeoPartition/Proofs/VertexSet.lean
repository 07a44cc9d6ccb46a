import GeoPartition.Proofs.Geo.Ends
import GeoPartition.Proofs.Partitioner

/-!
# The bucket is that of the vertices

**Theorem (`bucket_of_vertex_set`).** All shapes with the same set of vertices are filed alike, with
the same fault if they cannot be filed: the order of the vertices does not matter, nor how often one
of them comes, nor whether they are the ends of a line, the corners of a triangle, the vertices of a
path or the exterior of a polygon. They are filed as the box between their least and their greatest
coordinates, and a single vertex is filed as a point. The vertices are numbers, but need not be
valid.

Every such shape has a box that runs from the least to the greatest number on each axis
(`Shape.boundingRect?_isBoxOf`). The corners of two boxes of one set of vertices are equal as
numbers, and a partitioner does not tell equal numbers apart (`bucketOfRect_congr`): they are the
same but for the sign of zero, which is valid and changes no code.
-/

namespace GeoPartition

open Binary64

/-! ## Equal coordinates -/

namespace Coordinate

set_option maxRecDepth 2000 in
theorem checkAxis_zero (axis : Axis) (s : Bool) : checkAxis axis (signed s .zero) = .ok () := by
  cases axis <;> cases s <;> decide

/-- A check does not tell equal numbers apart, and names the same one if it fails. -/
theorem checkAxis_congr {v w : Binary64} (h : v.same w = true) (axis : Axis) :
    checkAxis axis v = checkAxis axis w := by
  rcases eq_or_zero_of_same h with rfl | ⟨s, t, rfl, rfl⟩
  · rfl
  · rw [checkAxis_zero, checkAxis_zero]

variable {a b : Coordinate}

theorem same_iff : a.same b = true ↔ a.lon.same b.lon = true ∧ a.lat.same b.lat = true := by
  simp [same]

theorem check_congr (h : a.same b = true) : a.check = b.check := by
  obtain ⟨hlon, hlat⟩ := same_iff.1 h
  rw [check, check, checkAxis_congr hlon, checkAxis_congr hlat]

theorem le_of_same (h : a.same b = true) : a.Le b ∧ b.Le a := by
  obtain ⟨hlon, hlat⟩ := same_iff.1 h
  obtain ⟨hlon₁, hlon₂⟩ := same_iff_le.1 hlon
  obtain ⟨hlat₁, hlat₂⟩ := same_iff_le.1 hlat
  exact ⟨⟨hlon₁, hlat₁⟩, ⟨hlon₂, hlat₂⟩⟩

end Coordinate

namespace Partitioner

variable {p : Partitioner}

theorem encode_of_check_error {c : Coordinate} {e : Coordinate.Error} (h : c.check = .error e) :
    p.encode c = .error e := by
  rw [encode, h]
  rfl

/-- **Equal coordinates have one code**, or one fault. -/
theorem encode_congr {a b : Coordinate} (h : a.same b = true) : p.encode a = p.encode b := by
  have hcheck := Coordinate.check_congr h
  cases ha : a.check with
  | error e => rw [encode_of_check_error ha, encode_of_check_error (hcheck.symm.trans ha)]
  | ok u =>
    have hb : b.check = .ok () := hcheck.symm.trans ha
    obtain ⟨hab, hba⟩ := Coordinate.le_of_same h
    have ha' := Coordinate.encodes_clamp ha
    -- The code of `b` is between that of `a` and itself.
    have hcode : Geohash.code p.precision a.clamp = Geohash.code p.precision b.clamp :=
      Geohash.code_between ha' (Coordinate.encodes_clamp hb) ha' (Coordinate.clamp_le_clamp hab)
        (Coordinate.clamp_le_clamp hba) p.le_max rfl
    rw [encode_of_check ha, encode_of_check hb, hcode]

theorem bucketOfRect_congr {r r' : Rect} (hlo : r.bottomLeft.same r'.bottomLeft = true)
    (hhi : r.topRight.same r'.topRight = true) : p.bucketOfRect r = p.bucketOfRect r' := by
  rw [bucketOfRect, bucketOfRect, encode_congr hlo, encode_congr hhi]

end Partitioner

/-! ## Boxes -/

namespace Coordinate

theorem le_refl_of_isNumber {c : Coordinate} (h : c.IsNumber) : c.Le c :=
  ⟨Binary64.le_refl h.1, Binary64.le_refl h.2⟩

/-- Do the longitude and the latitude come from a list, maybe from two of its members? -/
def ComesFrom (c : Coordinate) (cs : List Coordinate) : Prop :=
  c.lon ∈ cs.map (·.lon) ∧ c.lat ∈ cs.map (·.lat)

theorem comesFrom_of_mem {c : Coordinate} {cs : List Coordinate} (h : c ∈ cs) : c.ComesFrom cs :=
  ⟨List.mem_map_of_mem h, List.mem_map_of_mem h⟩

end Coordinate

namespace Rect

/-- A rectangle from the least to the greatest number on each axis. -/
def IsBoxOf (r : Rect) (cs : List Coordinate) : Prop :=
  r.lon.IsRangeOf (cs.map (·.lon)) ∧ r.lat.IsRangeOf (cs.map (·.lat))

/-- The boxes of one set of vertices have equal corners. -/
theorem IsBoxOf.same {r r' : Rect} {cs ds : List Coordinate} (h : r.IsBoxOf cs)
    (h' : r'.IsBoxOf ds) (hmem : ∀ c, c ∈ cs ↔ c ∈ ds) :
    r.bottomLeft.same r'.bottomLeft = true ∧ r.topRight.same r'.topRight = true := by
  have hmap (f : Coordinate → Binary64) (v : Binary64) : v ∈ cs.map f ↔ v ∈ ds.map f := by
    simp only [List.mem_map, hmem]
  obtain ⟨hlo, hhi⟩ := h.1.same h'.1 (hmap _)
  obtain ⟨hlo', hhi'⟩ := h.2.same h'.2 (hmap _)
  exact ⟨Coordinate.same_iff.2 ⟨hlo, hlo'⟩, Coordinate.same_iff.2 ⟨hhi, hhi'⟩⟩

theorem bounding?_isBoxOf {cs : List Coordinate} {r : Rect} (h : bounding? cs = some r)
    (hcs : ∀ c ∈ cs, c.IsNumber) : r.IsBoxOf cs := by
  cases cs with
  | nil => cases h
  | cons first rest =>
    obtain rfl := Option.some.inj h
    have hlon : ∀ v ∈ (first :: rest).map (·.lon), v ≠ nan :=
      List.forall_mem_map.2 fun c hc => (hcs c hc).1
    have hlat : ∀ v ∈ (first :: rest).map (·.lat), v ≠ nan :=
      List.forall_mem_map.2 fun c hc => (hcs c hc).2
    exact ⟨Extent.span_isRangeOf hlon, Extent.span_isRangeOf hlat⟩

theorem ofCorners_isBoxOf {a b : Coordinate} {cs : List Coordinate} (ha : a.ComesFrom cs)
    (hb : b.ComesFrom cs) (h : ∀ c ∈ cs, (ofCorners a b).Contains c) :
    (ofCorners a b).IsBoxOf cs := by
  constructor
  · apply Extent.ofEnds_isRangeOf ha.1 hb.1
    exact List.forall_mem_map.2 fun c hc => (contains_iff.1 (h c hc)).1
  · apply Extent.ofEnds_isRangeOf ha.2 hb.2
    exact List.forall_mem_map.2 fun c hc => (contains_iff.1 (h c hc)).2

/-- A rectangle holds its own corners if they are numbers. -/
theorem ofCorners_contains_of_isNumber {a b : Coordinate} (ha : a.IsNumber) (hb : b.IsNumber) :
    (ofCorners a b).Contains a ∧ (ofCorners a b).Contains b := by
  obtain ⟨halon, hblon⟩ := Extent.ofEnds_contains_ends ha.1 hb.1
  obtain ⟨halat, hblat⟩ := Extent.ofEnds_contains_ends ha.2 hb.2
  exact ⟨contains_iff.2 ⟨halon, halat⟩, contains_iff.2 ⟨hblon, hblat⟩⟩

theorem ofCorners_contains_of_le {a b c : Coordinate} (hac : a.Le c) (hcb : c.Le b) :
    (ofCorners a b).Contains c :=
  contains_iff.2 ⟨Extent.ofEnds_contains hac.1 hcb.1, Extent.ofEnds_contains hac.2 hcb.2⟩

end Rect

namespace Shape

/-- **The box of a shape** runs from the least to the greatest number of its vertices. -/
theorem boundingRect?_isBoxOf {s : Shape} {r : Rect} (h : s.boundingRect? = some r)
    (hne : s.vertices ≠ []) (hs : ∀ v ∈ s.vertices, v.IsNumber) : r.IsBoxOf s.vertices := by
  cases s with
  | point c =>
    obtain rfl := Option.some.inj h
    have hc := Coordinate.le_refl_of_isNumber (hs c List.mem_cons_self)
    have hmem := Coordinate.comesFrom_of_mem (List.mem_singleton_self c)
    apply Rect.ofCorners_isBoxOf hmem hmem
    intro v hv
    obtain rfl := List.mem_singleton.1 hv
    exact Rect.ofCorners_contains_of_le hc hc
  | line start finish =>
    obtain rfl := Option.some.inj h
    have hstart : start ∈ [start, finish] := List.mem_cons_self
    have hfinish : finish ∈ [start, finish] := List.mem_cons_of_mem _ List.mem_cons_self
    obtain ⟨hin, hin'⟩ := Rect.ofCorners_contains_of_isNumber (hs start hstart) (hs finish hfinish)
    apply Rect.ofCorners_isBoxOf (Coordinate.comesFrom_of_mem hstart)
      (Coordinate.comesFrom_of_mem hfinish)
    intro v hv
    rcases List.mem_pair.1 hv with rfl | rfl
    · exact hin
    · exact hin'
  | lineString cs => exact Rect.bounding?_isBoxOf h hs
  | polygon p => exact Rect.bounding?_isBoxOf h hs
  | triangle a b c => exact Rect.bounding?_isBoxOf h hs
  | rect _ | multiPoint _ | multiLineString _ | multiPolygon _ | collection _ =>
    exact absurd rfl hne

end Shape

/-! ## Shapes -/

namespace Coordinate

/-- A coordinate with the least longitude and the least latitude of a list. -/
def IsLowestOf (c : Coordinate) (cs : List Coordinate) : Prop :=
  c.ComesFrom cs ∧ ∀ d ∈ cs, c.Le d

/-- A coordinate with the greatest longitude and the greatest latitude of a list. -/
def IsHighestOf (c : Coordinate) (cs : List Coordinate) : Prop :=
  c.ComesFrom cs ∧ ∀ d ∈ cs, d.Le c

/-- The closing coordinate of a ring is one that it has already. -/
theorem mem_closeRing {ring : List Coordinate} {c : Coordinate} :
    c ∈ closeRing ring ↔ c ∈ ring := by
  cases ring with
  | nil => rfl
  | cons first rest =>
    simp only [closeRing, List.head?_cons, List.getLast?_cons]
    split_ifs
    · rfl
    · rw [List.mem_append, List.mem_singleton]
      constructor
      · rintro (h | rfl)
        · exact h
        · exact List.mem_cons_self
      · exact .inl

end Coordinate

namespace Rect

theorem IsBoxOf.isLowestOf {r : Rect} {cs : List Coordinate} (h : r.IsBoxOf cs) :
    r.bottomLeft.IsLowestOf cs :=
  ⟨⟨h.1.lo_mem, h.2.lo_mem⟩, fun _ hd => ⟨(h.1.contains _ (List.mem_map_of_mem hd)).1,
    (h.2.contains _ (List.mem_map_of_mem hd)).1⟩⟩

theorem IsBoxOf.isHighestOf {r : Rect} {cs : List Coordinate} (h : r.IsBoxOf cs) :
    r.topRight.IsHighestOf cs :=
  ⟨⟨h.1.hi_mem, h.2.hi_mem⟩, fun _ hd => ⟨(h.1.contains _ (List.mem_map_of_mem hd)).2,
    (h.2.contains _ (List.mem_map_of_mem hd)).2⟩⟩

theorem isBoxOf_of_lowest_highest {lo hi : Coordinate} {cs : List Coordinate}
    (hlo : lo.IsLowestOf cs) (hhi : hi.IsHighestOf cs) : (ofCorners lo hi).IsBoxOf cs :=
  ofCorners_isBoxOf hlo.1 hhi.1 fun c hc => ofCorners_contains_of_le (hlo.2 c hc) (hhi.2 c hc)

end Rect

namespace Partitioner

variable {p : Partitioner}

/-- **A shape is filed as any box of its vertices.** -/
theorem bucketOfShape_eq_of_isBoxOf {s : Shape} {r : Rect} {cs : List Coordinate}
    (hne : cs ≠ []) (hcs : ∀ c ∈ cs, c.IsNumber) (hr : r.IsBoxOf cs)
    (hs : ∀ c, c ∈ s.vertices ↔ c ∈ cs) : p.bucketOfShape s = some <$> p.bucketOfRect r := by
  have hvertices : s.vertices ≠ [] := by
    obtain ⟨c, hc⟩ := List.exists_mem_of_ne_nil cs hne
    exact List.ne_nil_of_mem ((hs c).2 hc)
  obtain ⟨r', hr'⟩ := Shape.exists_boundingRect? hvertices
  have hbox := Shape.boundingRect?_isBoxOf hr' hvertices fun c hc => hcs c ((hs c).1 hc)
  obtain ⟨hlo, hhi⟩ := hbox.same hr hs
  rw [bucketOfShape_eq, hr', ← bucketOfRect_congr hlo hhi]
  rfl

/-- **The bucket is that of the vertices.** Paths, polygons, lines, triangles and points with the
same set of vertices have one answer, and it is that of the box from the least to the greatest
coordinates. -/
theorem bucket_of_vertex_set (p : Partitioner) {cs : List Coordinate} (hne : cs ≠ [])
    (hcs : ∀ c ∈ cs, c.IsNumber) :
    (∀ ds, (∀ c, c ∈ ds ↔ c ∈ cs) →
      p.bucketOfShape (.lineString ds) = p.bucketOfShape (.lineString cs) ∧
      ∀ holes, p.bucketOfShape (.polygon (.ofRings ds holes)) = p.bucketOfShape (.lineString cs) ∧
        p.bucketOfShape (.polygon ⟨ds, holes⟩) = p.bucketOfShape (.lineString cs)) ∧
    (∀ a b, (∀ c, c ∈ [a, b] ↔ c ∈ cs) →
      p.bucketOfShape (.line a b) = p.bucketOfShape (.lineString cs)) ∧
    (∀ a b c, (∀ d, d ∈ [a, b, c] ↔ d ∈ cs) →
      p.bucketOfShape (.triangle a b c) = p.bucketOfShape (.lineString cs)) ∧
    (∀ a, (∀ c, c ∈ [a] ↔ c ∈ cs) →
      some <$> p.bucketOfPoint a = p.bucketOfShape (.lineString cs)) ∧
    (∃ lo hi : Coordinate, lo.IsLowestOf cs ∧ hi.IsHighestOf cs) ∧
    ∀ lo hi : Coordinate, lo.IsLowestOf cs → hi.IsHighestOf cs →
      some <$> p.bucketOfRect (.ofCorners lo hi) = p.bucketOfShape (.lineString cs) := by
  obtain ⟨r, hr⟩ := Shape.exists_boundingRect? (s := .lineString cs) hne
  have hbox : r.IsBoxOf cs := Shape.boundingRect?_isBoxOf hr hne hcs
  have hfile (s : Shape) (hs : ∀ c, c ∈ s.vertices ↔ c ∈ cs) :
      p.bucketOfShape s = p.bucketOfShape (.lineString cs) := by
    rw [bucketOfShape_eq_of_isBoxOf hne hcs hbox hs,
      bucketOfShape_eq_of_isBoxOf hne hcs hbox (s := .lineString cs) fun c => Iff.rfl]
  refine ⟨fun ds hds => ⟨hfile _ hds, fun holes => ⟨hfile _ fun c => ?_, hfile _ hds⟩⟩,
    fun a b hab => hfile _ hab, fun a b c habc => hfile _ habc, fun a ha => hfile (.point a) ha,
    ⟨_, _, hbox.isLowestOf, hbox.isHighestOf⟩, fun lo hi hlo hhi => ?_⟩
  · exact Coordinate.mem_closeRing.trans (hds c)
  · exact (bucketOfShape_eq_of_isBoxOf hne hcs (Rect.isBoxOf_of_lowest_highest hlo hhi)
      (s := .lineString cs) fun c => Iff.rfl).symm

/-- A place on the prime meridian. -/
def onMeridian : Coordinate := ⟨.ofDecimal false 0 0, .ofDecimal false 10 0⟩

/-- A place on the prime meridian beyond the pole, with the other zero for its longitude. -/
def beyondPole : Coordinate := ⟨.ofDecimal true 0 0, .ofDecimal false 95 0⟩

set_option maxRecDepth 4000 in
/-- Another order of the vertices changes the sign of a zero in the box, but not the fault. -/
theorem bucket_of_vertex_set_twoZeros :
    ([onMeridian, beyondPole] ≠ [] ∧ (∀ c ∈ [onMeridian, beyondPole], c.IsNumber) ∧
      (∀ c, c ∈ [beyondPole, onMeridian, beyondPole] ↔ c ∈ [onMeridian, beyondPole]) ∧
      Rect.bounding? [beyondPole, onMeridian, beyondPole] ≠
        Rect.bounding? [onMeridian, beyondPole]) ∧
    bucketOfShape ⟨3, by decide, by decide⟩ (.lineString [beyondPole, onMeridian, beyondPole]) =
      bucketOfShape ⟨3, by decide, by decide⟩ (.lineString [onMeridian, beyondPole]) ∧
    bucketOfShape ⟨3, by decide, by decide⟩ (.line onMeridian beyondPole) =
      bucketOfShape ⟨3, by decide, by decide⟩ (.lineString [onMeridian, beyondPole]) ∧
    bucketOfShape ⟨3, by decide, by decide⟩ (.lineString [onMeridian, beyondPole]) =
      .error (.outside .latitude (.ofDecimal false 95 0)) := by
  have hne : [onMeridian, beyondPole] ≠ [] := List.cons_ne_nil _ _
  have hnumbers : ∀ c ∈ [onMeridian, beyondPole], c.IsNumber := by
    intro c hc
    rcases List.mem_pair.1 hc with rfl | rfl
    · exact ⟨by decide, by decide⟩
    · exact ⟨by decide, by decide⟩
  have hsame : ∀ c, c ∈ [beyondPole, onMeridian, beyondPole] ↔ c ∈ [onMeridian, beyondPole] := by
    intro c
    simp [or_comm]
  obtain ⟨hpaths, hlines, -⟩ := bucket_of_vertex_set ⟨3, by decide, by decide⟩ hne hnumbers
  exact ⟨⟨hne, hnumbers, hsame, by decide⟩, (hpaths _ hsame).1, hlines _ _ fun c => Iff.rfl,
    by decide⟩

end Partitioner

end GeoPartition
