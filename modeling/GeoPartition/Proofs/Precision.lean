import GeoPartition.Proofs.Ingest.Accounting

/-!
# Precision

Of two partitioners, the one with the smaller precision is the coarser.

**Theorem (`precision_refinement`).** A coarser partitioner gives the same errors and the same
buckets, with the symbols of a cell cut to its precision. So a run with it ends as with the finer
one, and each count is the sum of the finer counts whose paths are cut to its name.

Codes are cut by taking fewer symbols, and cutting commutes with what codes share and with paths. So
each feature has its cut bucket, and a count is the number of features with that bucket.
-/

namespace GeoPartition

open Geohash (code take_code head?_code mem_alphabet_of_mem_code)

namespace Partitioner

variable {p q : Partitioner}

theorem separator_notMem_segments {r : Rect} {b : Bucket} (h : p.bucketOfRect r = .ok b) :
    Bucket.separator ∉ b.segments := by
  obtain ⟨-, -, rfl⟩ := bucketOfRect_eq_ok_iff.1 h
  rw [bucketBetween_eq]
  split_ifs
  · intro hmem
    have hcode := (commonPrefix_prefix_left _ _).subset hmem
    exact absurd (mem_alphabet_of_mem_code hcode) (by decide)
  · exact List.not_mem_nil
  · exact List.not_mem_nil

section cut

variable (h : p.precision ≤ q.precision)

include h

theorem bucketBetween_truncate (a c : Coordinate) :
    p.bucketBetween a c = (q.bucketBetween a c).truncate p.precision := by
  have hhead : ∀ b : Coordinate, (code p.precision b).head? = (code q.precision b).head? :=
    fun b => (head?_code p.one_le b).trans (head?_code q.one_le b).symm
  rw [bucketBetween_eq, bucketBetween_eq, hhead a, hhead c]
  split_ifs
  · rw [← take_code h a, ← take_code h c, commonPrefix_take]
    rfl
  · rfl
  · rfl

/-- **Boxes.** -/
theorem bucketOfRect_truncate (r : Rect) :
    p.bucketOfRect r = (q.bucketOfRect r).map (Bucket.truncate p.precision) := by
  rw [bucketOfRect_eq, bucketOfRect_eq, bucketBetween_truncate h]
  cases r.bottomLeft.check with
  | error e => rfl
  | ok u => cases r.topRight.check <;> rfl

/-- **Shapes.** -/
theorem bucketOfShape_truncate (x : Shape) :
    p.bucketOfShape x = (q.bucketOfShape x).map (Option.map (Bucket.truncate p.precision)) := by
  rw [bucketOfShape_eq, bucketOfShape_eq]
  cases x.boundingRect? with
  | none => rfl
  | some r =>
    show some <$> p.bucketOfRect r = (some <$> q.bucketOfRect r).map _
    rw [bucketOfRect_truncate h]
    cases q.bucketOfRect r <;> rfl

end cut

end Partitioner

namespace Ingest

open GeoJson (Feature)
open Bucket (cutPath cutPath_path)

variable {fs : List Feature} {p q : Partitioner} {s : Settings}

/-! ## One feature -/

theorem cutPath_bucket {f : Feature} {b : Bucket} (h : bucket q f = .ok (some b)) {n : ℕ}
    (hn : 1 ≤ n) : cutPath n b.path = (b.truncate n).path := by
  obtain ⟨r, hr⟩ := exists_bucketOfRect_of_bucket h
  exact cutPath_path hn (Partitioner.separator_notMem_segments hr)

variable (h : p.precision ≤ q.precision)

include h

theorem bucket_truncate (f : Feature) :
    bucket p f = (bucket q f).map (Option.map (Bucket.truncate p.precision)) := by
  rw [bucket_eq, bucket_eq]
  rcases shape? f with e | _ | x
  · rfl
  · rfl
  · show (p.bucketOfShape x).mapError _ = ((q.bucketOfShape x).mapError _).map _
    rw [Partitioner.bucketOfShape_truncate h]
    cases q.bucketOfShape x <;> rfl

theorem fault?_bucket (skipInvalid : Bool) (f : Feature) :
    fault? skipInvalid (bucket p f) = fault? skipInvalid (bucket q f) := by
  rw [bucket_truncate h]
  cases bucket q f <;> rfl

theorem unfiled_eq (f : Feature) : unfiled p f = unfiled q f := by
  unfold unfiled
  rw [bucket_truncate h]
  rcases bucket q f with e | _ | b <;> rfl

theorem filedAs_path_eq (name : String) (f : Feature) :
    filedAs p (fun b => b.path = name) f =
      filedAs q (fun b => cutPath p.precision b.path = name) f := by
  unfold filedAs
  rw [bucket_truncate h]
  rcases hb : bucket q f with e | _ | b
  · rfl
  · rfl
  · show decide ((b.truncate p.precision).path = name) = decide (cutPath p.precision b.path = name)
    rw [cutPath_bucket hb p.one_le]

/-! ## Runs -/

theorem exists_isAnswer_ok_iff :
    (∃ t, IsAnswer fs p s (.ok t)) ↔ ∃ u, IsAnswer fs q s (.ok u) := by
  simp only [isAnswer_ok_iff, features_eq_ok_iff, fault?_bucket h, exists_and_left, exists_eq',
    and_true]

theorem isAnswer_error_congr (e : FeatureError) :
    IsAnswer fs p s (.error e) ↔ IsAnswer fs q s (.error e) := by
  by_cases hs : s.parallel = true
  · simp only [isAnswer_error_iff hs, fault?_bucket h]
  · rw [IsAnswer, IsAnswer, if_neg hs, if_neg hs, features_eq, features_eq]
    simp only [fault?_bucket h]
    cases (looked fs s).findSome? fun f => fault? s.skipInvalid (bucket q f) <;> simp

theorem skipped_tallyOf_eq (l : List Feature) : (tallyOf p l).skipped = (tallyOf q l).skipped := by
  rw [skipped_tallyOf, skipped_tallyOf, funext (unfiled_eq h)]

theorem count_tallyOf_eq (l : List Feature) (name : String) :
    (tallyOf p l).count name =
      (tallyOf q l).counts.total fun key => cutPath p.precision key = name := by
  rw [count_tallyOf, total_tallyOf, funext (filedAs_path_eq h name)]

/-- **Precision refinement.** With a smaller precision a box, a shape and a feature have the same
error, no bucket as before, or the bucket of the greater precision cut to the smaller, with the path
cut too. A run over features ends with a tally exactly if the finer run does, and with the same
errors; it skips as many, and each count is the sum of the finer counts whose paths are cut to its
name. -/
theorem precision_refinement :
    (∀ r : Rect, p.bucketOfRect r = (q.bucketOfRect r).map (Bucket.truncate p.precision)) ∧
    (∀ x : Shape, p.bucketOfShape x =
      (q.bucketOfShape x).map (Option.map (Bucket.truncate p.precision))) ∧
    (∀ f : Feature, bucket p f = (bucket q f).map (Option.map (Bucket.truncate p.precision))) ∧
    (∀ f b, bucket q f = .ok (some b) →
      cutPath p.precision b.path = (b.truncate p.precision).path) ∧
    ∀ (fs : List Feature) (s : Settings),
      ((∃ t, IsAnswer fs p s (.ok t)) ↔ ∃ u, IsAnswer fs q s (.ok u)) ∧
      (∀ e, IsAnswer fs p s (.error e) ↔ IsAnswer fs q s (.error e)) ∧
      ∀ t u, IsAnswer fs p s (.ok t) → IsAnswer fs q s (.ok u) →
        t.skipped = u.skipped ∧
        ∀ name, t.count name = u.counts.total fun key => cutPath p.precision key = name := by
  refine ⟨Partitioner.bucketOfRect_truncate h, Partitioner.bucketOfShape_truncate h,
    bucket_truncate h, fun f b hb => cutPath_bucket hb p.one_le, fun fs s => ?_⟩
  refine ⟨exists_isAnswer_ok_iff h, isAnswer_error_congr h, fun t u ht hu => ?_⟩
  obtain ⟨-, rfl⟩ := features_eq_ok_iff.1 (isAnswer_ok_iff.1 ht)
  obtain ⟨-, rfl⟩ := features_eq_ok_iff.1 (isAnswer_ok_iff.1 hu)
  exact ⟨skipped_tallyOf_eq h _, count_tallyOf_eq h _⟩

omit h

/-- Two places in one cell of the first level, a path over the prime meridian, and a feature without
a geometry. -/
def neighbours : List Feature :=
  [⟨some (.point [.ofNat 5, .ofNat 15])⟩, ⟨some (.point [.ofNat 20, .ofNat 20])⟩,
    ⟨some (.lineString [[.ofDecimal true 10 0, .ofNat 10], [.ofNat 10, .ofNat 20]])⟩, ⟨none⟩]

set_option maxRecDepth 2000 in
/-- With three symbols the places fall into two cells, with one symbol into one. -/
theorem precision_refinement_neighbours :
    ∃ (p q : Partitioner) (t u : Tally), p.precision = 1 ∧ q.precision = 3 ∧
      p.precision ≤ q.precision ∧ IsAnswer neighbours p {} (.ok t) ∧
      IsAnswer neighbours q {} (.ok u) ∧ t.skipped = u.skipped ∧ t.count "s" = 2 ∧
      u.count "s/4/e" = 1 ∧ u.count "s/7/w" = 1 ∧
      t.count "s" = u.counts.total fun key => cutPath 1 key = "s" := by
  obtain ⟨-, -, -, -, hruns⟩ := precision_refinement (p := ⟨1, by decide, by decide⟩)
    (q := ⟨3, by decide, by decide⟩) (by decide)
  have ht : IsAnswer neighbours ⟨1, by decide, by decide⟩ {}
      (.ok (((Tally.empty.record "s").record "s").record "North").recordSkipped) :=
    isAnswer_ok_iff.2 (by decide)
  have hu : IsAnswer neighbours ⟨3, by decide, by decide⟩ {}
      (.ok (((Tally.empty.record "s/4/e").record "s/7/w").record "North").recordSkipped) :=
    isAnswer_ok_iff.2 (by decide)
  obtain ⟨hskipped, hcount⟩ := (hruns neighbours {}).2.2 _ _ ht hu
  exact ⟨_, _, _, _, rfl, rfl, by decide, ht, hu, hskipped, by decide, by decide,
    by decide, hcount "s"⟩

end Ingest

end GeoPartition
