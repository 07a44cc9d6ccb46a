import GeoPartition.Proofs.GeoJson.Shapes
import GeoPartition.Proofs.Ingest.Accounting

/-!
# What of a geometry is read

**Theorem (`conversion_exact`).** A geometry is read as what it is, with the first two values of its
positions; it fails exactly if a position of a geometry of one part has fewer, or a polygon has no
ring. So the values behind the second have no influence on the answers of a run, and interior rings
have none as long as their positions can be read. An interior ring with a short position is a fault
of its feature.

The first part is about each geometry. The others compare runs over two lists of features: it is
enough that features at the same place are counted alike (`isAnswer_congr_count`), and features with
the same bucket are.
-/

namespace GeoPartition

namespace GeoJson

/-! ## Values that are not read -/

/-- Do two positions have the same first two values, or the same too few? -/
def SameFirst (p q : Position) : Prop := p.take 2 = q.take 2

theorem coordinate_take (pos : Position) : coordinate (pos.take 2) = coordinate pos := by
  match pos with
  | [] => rfl
  | [_] => rfl
  | _ :: _ :: _ => rfl

theorem SameFirst.coordinate_eq {p q : Position} (h : SameFirst p q) :
    coordinate p = coordinate q := by
  rw [← coordinate_take p, h, coordinate_take]

namespace Geometry

/-- Two geometries that differ only in values of positions behind the second. -/
inductive SamePlane : Geometry → Geometry → Prop
  | point {p q : Position} : SameFirst p q → SamePlane (.point p) (.point q)
  | multiPoint {ps qs : List Position} :
      List.Forall₂ SameFirst ps qs → SamePlane (.multiPoint ps) (.multiPoint qs)
  | lineString {ps qs : List Position} :
      List.Forall₂ SameFirst ps qs → SamePlane (.lineString ps) (.lineString qs)
  | multiLineString {ls ms : List (List Position)} :
      List.Forall₂ (List.Forall₂ SameFirst) ls ms →
      SamePlane (.multiLineString ls) (.multiLineString ms)
  | polygon {rs ss : List (List Position)} :
      List.Forall₂ (List.Forall₂ SameFirst) rs ss → SamePlane (.polygon rs) (.polygon ss)
  | multiPolygon {ps qs : List (List (List Position))} :
      List.Forall₂ (List.Forall₂ (List.Forall₂ SameFirst)) ps qs →
      SamePlane (.multiPolygon ps) (.multiPolygon qs)
  | collection {gs hs : List Geometry} :
      List.Forall₂ SamePlane gs hs → SamePlane (.collection gs) (.collection hs)

theorem mapM_coordinate_congr {ps qs : List Position} (h : List.Forall₂ SameFirst ps qs) :
    ps.mapM coordinate = qs.mapM coordinate :=
  mapM_congr (h.imp fun _ _ => SameFirst.coordinate_eq)

/-- **Values behind the second** have no influence on the shape. -/
theorem SamePlane.toShape_eq {g h : Geometry} (hgh : SamePlane g h) : g.toShape = h.toShape := by
  cases hgh with
  | point hpos => rw [toShape, toShape, hpos.coordinate_eq]
  | lineString hps => rw [toShape, toShape, mapM_coordinate_congr hps]
  | polygon hrings =>
    cases hrings with
    | nil => rfl
    | cons hexterior hinteriors =>
      have hcss := mapM_congr (hinteriors.imp fun _ _ => mapM_coordinate_congr)
      rw [toShape_polygon, toShape_polygon, mapM_coordinate_congr hexterior, hcss]
  | _ => rfl

/-! ## Interior rings -/

/-- Have all positions of a ring at least two values? -/
def isWellFormed (ring : List Position) : Bool := ring.all (2 ≤ ·.length)

/-- Two geometries with the same bucket: values behind the second are others, or a polygon has more
or fewer interior rings that are well-formed. -/
inductive Alike : Geometry → Geometry → Prop
  | ordinates {g h : Geometry} : SamePlane g h → Alike g h
  | interiors {exterior : List Position} {rs ss : List (List Position)} :
      rs.filter (!isWellFormed ·) = ss.filter (!isWellFormed ·) →
      Alike (.polygon (exterior :: rs)) (.polygon (exterior :: ss))

/-- Rings can be read exactly if none is left without the well-formed ones. -/
theorem filter_isWellFormed_eq_nil_iff {rings : List (List Position)} :
    rings.filter (!isWellFormed ·) = [] ↔ ∃ css, rings.mapM (·.mapM coordinate) = .ok css := by
  rw [exists_mapM_mapM_coordinate_iff]
  simp [isWellFormed, Nat.lt_iff_add_one_le]

theorem filter_isWellFormed_ne_nil_iff {rings : List (List Position)} :
    rings.filter (!isWellFormed ·) ≠ [] ↔ ∃ ring ∈ rings, ∃ pos ∈ ring, pos.length < 2 := by
  rw [ne_eq, filter_isWellFormed_eq_nil_iff, exists_mapM_mapM_coordinate_iff]
  push Not
  rfl

end Geometry

/-- Two features with the same bucket, by their geometries. -/
def Feature.Alike (f g : Feature) : Prop := Option.Rel Geometry.Alike f.geometry g.geometry

end GeoJson

namespace Ingest

open GeoJson (Feature Geometry Position)

/-! ## One feature -/

section bucket

variable (p : Partitioner) {exterior : List Position} {interiors : List (List Position)}

/-- The fault of a polygon with a short position in an interior ring, whatever else it holds. -/
theorem bucket_polygon_short (h : ∃ ring ∈ interiors, ∃ pos ∈ ring, pos.length < 2) :
    bucket p ⟨some (.polygon (exterior :: interiors))⟩ = .error (.shape .shortPosition) := by
  have hshape := Geometry.toShape_polygon_eq_error_iff.2
    ⟨rfl, (List.exists_mem_cons_iff _ exterior interiors).2 (.inr h)⟩
  show ((Geometry.polygon (exterior :: interiors)).toShape.mapError FeatureError.shape >>=
    fun _ => _) = _
  rw [hshape]
  rfl

/-- The bucket of a polygon is that of its exterior, once its interior rings are read. -/
theorem bucket_polygon (h : ∃ css, interiors.mapM (·.mapM GeoJson.coordinate) = .ok css) :
    bucket p ⟨some (.polygon (exterior :: interiors))⟩ =
      bucket p ⟨some (.polygon [exterior])⟩ := by
  obtain ⟨css, hcss⟩ := h
  unfold bucket
  simp only [Geometry.toShape_polygon, hcss]
  cases exterior.mapM GeoJson.coordinate <;> rfl

theorem bucket_congr {f g : Feature} (h : f.Alike g) : bucket p f = bucket p g := by
  obtain ⟨f⟩ := f
  obtain ⟨g⟩ := g
  cases h with
  | none => rfl
  | some hgh =>
    cases hgh with
    | ordinates hplane =>
      rw [bucket_eq, bucket_eq]
      simp only [shape?, Option.elim_some, hplane.toShape_eq]
    | @interiors exterior rs ss hrings =>
      by_cases hrs : rs.filter (!Geometry.isWellFormed ·) = []
      · have hss := hrings.symm.trans hrs
        rw [bucket_polygon p (Geometry.filter_isWellFormed_eq_nil_iff.1 hrs),
          bucket_polygon p (Geometry.filter_isWellFormed_eq_nil_iff.1 hss)]
      · have hss : ss.filter (!Geometry.isWellFormed ·) ≠ [] := hrings ▸ hrs
        rw [bucket_polygon_short p (Geometry.filter_isWellFormed_ne_nil_iff.1 hrs),
          bucket_polygon_short p (Geometry.filter_isWellFormed_ne_nil_iff.1 hss)]

end bucket

/-! ## Runs -/

/-- Does a run count two features in the same way, whatever was counted before? -/
def CountedAlike (p : Partitioner) (s : Settings) (f g : Feature) : Prop :=
  ∀ t, count s.skipInvalid t (bucket p f) = count s.skipInvalid t (bucket p g)

section congr

variable {p : Partitioner} {s : Settings} {fs gs : List Feature}

theorem exists_mem_congr {P : Feature → Prop} (h : List.Forall₂ (fun f g => P f ↔ P g) fs gs) :
    (∃ f ∈ fs, P f) ↔ ∃ g ∈ gs, P g := by
  induction h with
  | nil => exact Iff.rfl
  | cons hfg _ ih => rw [List.exists_mem_cons_iff, List.exists_mem_cons_iff, hfg, ih]

theorem looked_congr {R : Feature → Feature → Prop} (h : List.Forall₂ R fs gs) :
    List.Forall₂ R (looked fs s) (looked gs s) := by
  rw [looked, looked, ← h.length_eq]
  exact List.forall₂_take _ h

theorem fault?_eq_some_iff_count {skipInvalid : Bool} {o : Filing} {e : FeatureError} :
    fault? skipInvalid o = some e ↔ count skipInvalid .empty o = .error e := by
  rw [count_eq]
  cases fault? skipInvalid o <;> simp

theorem features_congr (h : List.Forall₂ (CountedAlike p s) fs gs) :
    features fs p s = features gs p s := by
  have hfold : ∀ {l m : List Feature}, List.Forall₂ (CountedAlike p s) l m → ∀ t,
      l.foldlM (fun t f => count s.skipInvalid t (bucket p f)) t =
        m.foldlM (fun t f => count s.skipInvalid t (bucket p f)) t := by
    intro l m hlm
    induction hlm with
    | nil => exact fun t => rfl
    | cons hfg _ ih =>
      intro t
      rw [List.foldlM_cons, List.foldlM_cons, hfg, funext ih]
  exact hfold (looked_congr h) .empty

/-- **Features that are counted alike** have the same answers, whatever the schedule. -/
theorem isAnswer_congr_count (h : List.Forall₂ (CountedAlike p s) fs gs)
    (r : Except FeatureError Tally) : IsAnswer fs p s r ↔ IsAnswer gs p s r := by
  cases r with
  | ok t => rw [isAnswer_ok_iff, isAnswer_ok_iff, features_congr h]
  | error e =>
    by_cases hs : s.parallel = true
    · rw [isAnswer_error_iff hs, isAnswer_error_iff hs]
      refine exists_mem_congr ((looked_congr h).imp fun f g hfg => ?_)
      rw [fault?_eq_some_iff_count, fault?_eq_some_iff_count, hfg]
    · rw [IsAnswer, IsAnswer, if_neg hs, if_neg hs, features_congr h]

theorem isAnswer_congr_alike (h : List.Forall₂ Feature.Alike fs gs)
    (r : Except FeatureError Tally) : IsAnswer fs p s r ↔ IsAnswer gs p s r :=
  isAnswer_congr_count (h.imp fun f g hfg t => by rw [bucket_congr p hfg]) r

/-- A lenient run counts a feature that cannot be filed as one without a geometry. -/
theorem isAnswer_lenient_iff {f : Feature} {e : FeatureError} (hf : bucket p f = .error e)
    (hs : s.skipInvalid = true) (before after : List Feature) (r : Except FeatureError Tally) :
    IsAnswer (before ++ f :: after) p s r ↔ IsAnswer (before ++ ⟨none⟩ :: after) p s r := by
  have hcount : CountedAlike p s f ⟨none⟩ := by
    intro t
    rw [hf, hs]
    rfl
  refine isAnswer_congr_count (List.rel_append ?_ (.cons hcount ?_)) r
  · exact List.forall₂_same.2 fun f _ t => rfl
  · exact List.forall₂_same.2 fun f _ t => rfl

/-- A strict run that looks at a feature that cannot be filed has a fault. -/
theorem exists_error_of_isAnswer_strict {f : Feature} {e : FeatureError}
    (hf : bucket p f = .error e) (hs : s.skipInvalid = false) (hmem : f ∈ looked fs s)
    {r : Except FeatureError Tally} (h : IsAnswer fs p s r) : ∃ e, r = .error e := by
  cases r with
  | error e => exact ⟨e, rfl⟩
  | ok t =>
    have hnone := (features_eq_ok_iff.1 (isAnswer_ok_iff.1 h)).1 f hmem
    rw [fault?_eq_some_iff.2 ⟨hs, hf⟩] at hnone
    cases hnone

end congr

/-- **Geometries are read exactly.** Each geometry has several parts and no shape, or a fault, or a
shape of its kind; and only the first two values of its positions are read. Runs over features that
differ in other values, or in well-formed interior rings, have the same answers. A short position
in an interior ring makes the feature one that cannot be filed: it is counted as if it had no
geometry, or ends the run. -/
theorem conversion_exact :
    (∀ g : Geometry, (g.toShape = .ok none ↔ g.HasParts) ∧
      (g.toShape = .error .noRing ↔ g = .polygon []) ∧
      (g.toShape = .error .shortPosition ↔ ∃ pos ∈ g.positions, pos.length < 2) ∧
      ∀ s, g.toShape = .ok (some s) ↔ g.Reads s) ∧
    (∀ fs gs, List.Forall₂ Feature.Alike fs gs →
      ∀ p s r, IsAnswer fs p s r ↔ IsAnswer gs p s r) ∧
    ∀ (exterior : List Position) (interiors : List (List Position)) (f : Feature),
      f.geometry = some (.polygon (exterior :: interiors)) →
      (∃ ring ∈ interiors, ∃ pos ∈ ring, pos.length < 2) → ∀ p,
      bucket p f = .error (.shape .shortPosition) ∧
      (∀ s before after r, s.skipInvalid = true →
        (IsAnswer (before ++ f :: after) p s r ↔ IsAnswer (before ++ ⟨none⟩ :: after) p s r)) ∧
      ∀ s fs r, s.skipInvalid = false → f ∈ looked fs s → IsAnswer fs p s r →
        ∃ e, r = .error e := by
  refine ⟨fun g => ⟨Geometry.toShape_eq_none_iff, ?_, ?_, fun s => Geometry.toShape_eq_some_iff⟩,
    fun fs gs h p s r => isAnswer_congr_alike h r, ?_⟩
  · simp [Geometry.toShape_eq_error_iff]
  · simp [Geometry.toShape_eq_error_iff]
  · rintro exterior interiors ⟨_⟩ rfl hshort p
    have hf : bucket p ⟨some (.polygon (exterior :: interiors))⟩ = _ :=
      bucket_polygon_short p hshort
    exact ⟨hf, fun s before after r hs => isAnswer_lenient_iff hf hs before after r,
      fun s fs r hs hmem => exists_error_of_isAnswer_strict hf hs hmem⟩

/-- A field, with a third value at one of its corners. -/
def field : List Position :=
  [[.ofNat 5, .ofNat 15], [.ofNat 20, .ofNat 15, .ofNat 7], [.ofNat 20, .ofNat 20]]

/-- The third value, and a hole of the same form, have no influence on a run over the field. A hole
with a short position is skipped by a lenient run and ends a strict one. -/
theorem conversion_exact_field :
    (∀ r, IsAnswer [⟨some (.polygon [field])⟩] ⟨2, by decide, by decide⟩ {} r ↔
      IsAnswer [⟨some (.polygon [field.map (·.take 2)])⟩] ⟨2, by decide, by decide⟩ {} r) ∧
    (∀ r, IsAnswer [⟨some (.polygon [field, field])⟩] ⟨2, by decide, by decide⟩ {} r ↔
      IsAnswer [⟨some (.polygon [field])⟩] ⟨2, by decide, by decide⟩ {} r) ∧
    (∀ r, IsAnswer [⟨some (.polygon [field, [[.ofNat 5]]])⟩] ⟨2, by decide, by decide⟩ {} r ↔
      IsAnswer [⟨none⟩] ⟨2, by decide, by decide⟩ {} r) ∧
    ∃ e, features [⟨some (.polygon [field, [[.ofNat 5]]])⟩] ⟨2, by decide, by decide⟩
      { skipInvalid := false } = .error e := by
  obtain ⟨-, hruns, hshort⟩ := conversion_exact
  have hplane : Geometry.SamePlane (.polygon [field]) (.polygon [field.map (·.take 2)]) :=
    .polygon (.cons (.cons rfl (.cons rfl (.cons rfl .nil))) .nil)
  have hhole : Geometry.Alike (.polygon [field, field]) (.polygon [field]) := .interiors rfl
  obtain ⟨-, hlenient, hstrict⟩ := hshort field [[[.ofNat 5]]] _ rfl
    ⟨_, List.mem_singleton_self _, _, List.mem_singleton_self _, by decide⟩
    ⟨2, by decide, by decide⟩
  exact ⟨hruns _ _ (.cons (.some (.ordinates hplane)) .nil) _ _,
    hruns _ _ (.cons (.some hhole) .nil) _ _, fun r => hlenient {} [] [] r rfl,
    hstrict { skipInvalid := false } _ _ rfl (List.mem_singleton_self _)
      (isAnswer_features _ _ _)⟩

end Ingest

end GeoPartition
