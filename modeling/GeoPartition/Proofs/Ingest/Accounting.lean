import GeoPartition.Proofs.Bucket.Path
import GeoPartition.Proofs.Containment
import GeoPartition.Proofs.Ingest.Schedule

/-!
# What a tally accounts for

**Theorem (`exact_accounting`).** If a run over some features ends with a tally, each feature that
is looked at is counted once: under the path of its bucket, or as skipped. The summary tells regions
from cells as the buckets themselves do. The other features play no part.

Each number of a tally is raised by one by the features of some kind, and left alone by the others
(`measure_tallyOf`); only the kind is to be found. The summary sees paths, which tell the kind of a
bucket because no feature has the bucket without a path.
-/

namespace GeoPartition

namespace Ingest

open GeoJson (Feature)

variable {fs : List Feature} {p : Partitioner} {s : Settings}

/-! ## Features by their outcome -/

/-- Has a feature a bucket with a property? -/
def filedAs (p : Partitioner) (P : Bucket → Bool) (f : Feature) : Bool :=
  match bucket p f with
  | .ok (some b) => P b
  | .ok none | .error _ => false

/-- Is a feature left without a bucket, or cannot be filed? -/
def unfiled (p : Partitioner) (f : Feature) : Bool :=
  match bucket p f with
  | .ok (some _) => false
  | .ok none | .error _ => true

theorem not_filedAs (p : Partitioner) (f : Feature) :
    (!filedAs p (fun _ => true) f) = unfiled p f := by
  unfold filedAs unfiled
  rcases bucket p f with e | _ | b <;> rfl

theorem filedAs_congr {P Q : Bucket → Bool} {f : Feature}
    (h : ∀ b, bucket p f = .ok (some b) → P b = Q b) : filedAs p P f = filedAs p Q f := by
  unfold filedAs
  rcases hb : bucket p f with e | _ | b
  · rfl
  · rfl
  · exact h b hb

/-! ## The shape of a feature -/

/-- The shape of a feature, if it has one. -/
def shape? (f : Feature) : Except FeatureError (Option Shape) :=
  f.geometry.elim (.ok none) fun g => g.toShape.mapError .shape

theorem bucket_eq (p : Partitioner) (f : Feature) :
    bucket p f = shape? f >>= fun o =>
      o.elim (.ok none) fun x => (p.bucketOfShape x).mapError .coordinate := by
  unfold bucket shape?
  cases f.geometry with
  | none => rfl
  | some g =>
    -- The two continuations differ only in how they take the shape apart.
    refine congrArg (Except.bind (g.toShape.mapError FeatureError.shape)) (funext fun o => ?_)
    cases o <;> rfl

/-- The bucket of a feature is that of a box. -/
theorem exists_bucketOfRect_of_bucket {f : Feature} {b : Bucket} (h : bucket p f = .ok (some b)) :
    ∃ r, p.bucketOfRect r = .ok b := by
  rw [bucket_eq] at h
  obtain ⟨o, -, ho⟩ := bind_eq_ok_iff.1 h
  cases o with
  | none => cases ho
  | some x =>
    obtain ⟨r, -, hr⟩ := Partitioner.bucketOfShape_eq_some_iff.1 (mapError_eq_ok_iff.1 ho)
    exact ⟨r, hr⟩

/-! ## The numbers of a tally -/

section

variable (p : Partitioner) (l : List Feature)

theorem total_tallyOf (P : String → Bool) :
    (tallyOf p l).counts.total P = l.countP (filedAs p fun b => P b.path) := by
  refine measure_tallyOf p (m := fun t => t.counts.total P) rfl (fun t f => ?_) l
  unfold filedAs
  rcases bucket p f with e | _ | b
  · rfl
  · rfl
  · exact Counts.total_add P t.counts b.path 1

theorem count_tallyOf (name : String) :
    (tallyOf p l).count name = l.countP (filedAs p fun b => b.path = name) := by
  refine measure_tallyOf p (m := fun t => t.count name) rfl (fun t f => ?_) l
  unfold filedAs
  rcases bucket p f with e | _ | b
  · rfl
  · rfl
  · rw [tallied, Tally.count, Tally.record, Tally.recordMany, Counts.get_add]
    simp [Tally.count, eq_comm]

theorem skipped_tallyOf : (tallyOf p l).skipped = l.countP (unfiled p) := by
  refine measure_tallyOf p (m := Tally.skipped) rfl (fun t f => ?_) l
  unfold unfiled
  rcases bucket p f with e | _ | b <;> rfl

/-- No bucket is counted zero times. -/
theorem pos_of_mem_tallyOf : ∀ e ∈ (tallyOf p l).counts.toList, 0 < e.2 := by
  induction l using List.reverseRecOn with
  | nil => simp [tallyOf, Tally.empty, Counts.empty]
  | append_singleton l f ih =>
    rw [tallyOf_concat]
    rcases bucket p f with e | _ | b
    · exact ih
    · exact ih
    · exact Counts.add_pos ih b.path Nat.one_pos

/-! ## The summary -/

theorem summary_tallyOf_overall :
    (tallyOf p l).summary.overall.total + (tallyOf p l).summary.skipped = l.length := by
  rw [Tally.summary_overall_total, total_tallyOf]
  show _ + (tallyOf p l).skipped = _
  rw [skipped_tallyOf, l.length_eq_countP_add_countP (filedAs p fun _ => true)]
  congr 1
  exact List.countP_congr fun f _ => by rw [← not_filedAs]; simp

theorem summary_tallyOf_regions :
    (tallyOf p l).summary.regions.total = l.countP (filedAs p Bucket.isRegion) := by
  rw [Tally.summary_regions_total, total_tallyOf]
  simp only [Bucket.isRegionName_path]

theorem summary_tallyOf_cells :
    (tallyOf p l).summary.cells.total = l.countP (filedAs p Bucket.isCell) := by
  rw [Tally.summary_cells_total, total_tallyOf]
  refine List.countP_congr fun f _ => ?_
  rw [filedAs_congr fun b hb => ?_]
  obtain ⟨r, hr⟩ := exists_bucketOfRect_of_bucket hb
  rw [Bucket.isRegionName_path]
  cases b with
  | unclassified => exact absurd rfl (Partitioner.bucketOfRect_ne_unclassified hr)
  | _ => rfl

end

/-! ## Features past the limit -/

/-- Two lists with the same features up to the limit have the same answers. -/
theorem isAnswer_congr {gs : List Feature} (hlimit : limit s gs.length = limit s fs.length)
    (h : ∀ i < limit s fs.length, gs[i]? = fs[i]?) (r : Except FeatureError Tally) :
    IsAnswer gs p s r ↔ IsAnswer fs p s r := by
  have hlooked : looked gs s = looked fs s := by
    unfold looked
    rw [hlimit]
    apply List.ext_getElem?
    intro i
    rw [List.getElem?_take, List.getElem?_take]
    split_ifs with hi
    · exact h i hi
    · rfl
  have hfeatures : features gs p s = features fs p s := by
    rw [features_eq, features_eq, hlooked]
  rw [IsAnswer, IsAnswer, hlooked, hfeatures]

/-- **Exact accounting.** A tally with which a run ends counts under each name the features looked
at whose bucket has that path, and as skipped those without a bucket. No count is zero. The totals
of its summary are the numbers of features looked at, of those in regions, and of those in cells.
Features past the limit have no influence on any answer. -/
theorem exact_accounting (fs : List Feature) (p : Partitioner) (s : Settings) :
    (∀ t, IsAnswer fs p s (.ok t) →
      (∀ name, t.count name = (looked fs s).countP (filedAs p fun b => b.path = name)) ∧
      t.skipped = (looked fs s).countP (unfiled p) ∧
      (∀ e ∈ t.counts.toList, 0 < e.2) ∧
      t.summary.overall.total + t.summary.skipped = limit s fs.length ∧
      t.summary.regions.total = (looked fs s).countP (filedAs p Bucket.isRegion) ∧
      t.summary.cells.total = (looked fs s).countP (filedAs p Bucket.isCell)) ∧
    ∀ gs : List Feature, limit s gs.length = limit s fs.length →
      (∀ i < limit s fs.length, gs[i]? = fs[i]?) →
      ∀ r, IsAnswer gs p s r ↔ IsAnswer fs p s r := by
  refine ⟨fun t ht => ?_, fun gs hlimit hgs r => isAnswer_congr hlimit hgs r⟩
  obtain ⟨-, rfl⟩ := features_eq_ok_iff.1 (isAnswer_ok_iff.1 ht)
  rw [← length_looked]
  exact ⟨count_tallyOf p _, skipped_tallyOf p _, pos_of_mem_tallyOf p _,
    summary_tallyOf_overall p _, summary_tallyOf_regions p _, summary_tallyOf_cells p _⟩

/-- A place, a path over the prime meridian, a feature without a geometry, and a place outside the
globe. -/
def fourFeatures : List Feature :=
  [⟨some (.point [.ofNat 5, .ofNat 15])⟩,
    ⟨some (.lineString [[.ofDecimal true 10 0, .ofNat 10], [.ofNat 10, .ofNat 20]])⟩, ⟨none⟩,
    ⟨some (.point [.ofNat 200, .ofNat 15])⟩]

/-- Workers that look at three features and skip none that cannot be filed. -/
def strictThree : Settings := { maxFeatures := some 3, parallel := true, skipInvalid := false }

set_option maxRecDepth 2000 in
/-- The feature past the limit would end the run, and plays no part. -/
theorem exact_accounting_fourFeatures :
    (∃ t, IsAnswer fourFeatures ⟨2, by decide, by decide⟩ strictThree (.ok t) ∧
      t.count "North" = 1 ∧ t.count "s/4" = 1 ∧ t.skipped = 1 ∧
      t.summary.overall.total + t.summary.skipped = 3 ∧ t.summary.regions.total = 1 ∧
      t.summary.cells.total = 1) ∧
    ∀ r, IsAnswer (fourFeatures.take 3) ⟨2, by decide, by decide⟩ strictThree r ↔
      IsAnswer fourFeatures ⟨2, by decide, by decide⟩ strictThree r := by
  obtain ⟨haccount, hpast⟩ := exact_accounting fourFeatures ⟨2, by decide, by decide⟩ strictThree
  constructor
  · have ht : IsAnswer fourFeatures ⟨2, by decide, by decide⟩ strictThree
        (.ok ((Tally.empty.record "s/4").record "North").recordSkipped) :=
      isAnswer_ok_iff.2 (by decide)
    obtain ⟨hcount, hskipped, -, htotal, hregions, hcells⟩ := haccount _ ht
    refine ⟨_, ht, (hcount _).trans ?_, (hcount _).trans ?_, hskipped.trans ?_, htotal.trans ?_,
      hregions.trans ?_, hcells.trans ?_⟩ <;> decide
  · exact hpast _ rfl fun i hi => List.getElem?_take_of_lt hi

end Ingest

end GeoPartition
