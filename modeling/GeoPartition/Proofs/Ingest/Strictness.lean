import GeoPartition.Proofs.GeoJson.Boxless
import GeoPartition.Proofs.Ingest.Accounting

/-!
# Strict and lenient runs

A lenient run skips the features that cannot be filed; a strict run ends with the first of them.

**Theorem (`strict_refines_lenient`).** A lenient run always has a tally. A strict run ends with a
fault exactly if a feature that is looked at cannot be filed, and then with that of the first such
feature; otherwise it has the tally of the lenient run. A feature without a box around it is no
fault.

Both runs count the same outcomes, so it is enough to say which outcomes are faults. In a lenient
run none is. In a strict run those that carry an error are, and the features without a box are
exactly those that have neither an error nor a bucket (`bucket_eq_ok_none_iff`).
-/

namespace GeoPartition

namespace Ingest

open GeoJson (Feature)

variable {fs : List Feature} {p : Partitioner} {s : Settings}

/-! ## Features that are passed over -/

/-- **A feature is passed over** exactly if there is no box around it. -/
theorem bucket_eq_ok_none_iff {f : Feature} : bucket p f = .ok none ↔ f.Boxless := by
  have hbox : ∀ o : Option Shape,
      (o.elim (.ok none) fun x => (p.bucketOfShape x).mapError FeatureError.coordinate) = .ok none ↔
        o.bind Shape.boundingRect? = none := by
    intro o
    cases o with
    | none => exact iff_of_true rfl rfl
    | some x => exact mapError_eq_ok_iff.trans Partitioner.bucketOfShape_eq_none_iff
  simp only [bucket_eq, bind_eq_ok_iff, hbox, shape?, Feature.Boxless]
  cases f.geometry with
  | none => simp
  | some g =>
    simp only [Option.elim_some, mapError_eq_ok_iff, Option.some.injEq, forall_eq',
      GeoJson.Geometry.exists_toShape_boxless_iff]

/-- Such a feature counts as skipped in a strict run too, and no other feature does. -/
theorem count_strict_eq_recordSkipped_iff {f : Feature} {t : Tally} :
    count false t (bucket p f) = .ok t.recordSkipped ↔ f.Boxless := by
  rw [← bucket_eq_ok_none_iff (p := p)]
  rcases bucket p f with e | _ | b
  · simp [count]
  · simp [count]
  · simp [count, Tally.record, Tally.recordMany, Tally.recordSkipped]

/-! ## The first fault -/

theorem findSome?_eq_some_iff_getElem? {α β : Type} {f : α → Option β} {l : List α} {b : β} :
    l.findSome? f = some b ↔
      ∃ (i : ℕ) (a : α), l[i]? = some a ∧ f a = some b ∧
        ∀ j < i, ∀ c, l[j]? = some c → f c = none := by
  rw [List.findSome?_eq_some_iff]
  constructor
  · rintro ⟨before, a, after, rfl, ha, hbefore⟩
    refine ⟨before.length, a, by simp, ha, fun j hj c hc => hbefore c ?_⟩
    rw [List.getElem?_append_left hj] at hc
    exact List.mem_of_getElem? hc
  · rintro ⟨i, a, hi, ha, hbefore⟩
    obtain ⟨hlt, rfl⟩ := List.getElem?_eq_some_iff.1 hi
    refine ⟨l.take i, l[i], l.drop (i + 1), ?_, ha, fun c hc => ?_⟩
    · rw [← List.drop_eq_getElem_cons hlt, List.take_append_drop]
    · obtain ⟨j, hj, rfl⟩ := List.mem_take_iff_getElem.1 hc
      exact hbefore j (by omega) _ (List.getElem?_eq_getElem _)

/-- Place `i` holds the first of some features that cannot be filed, and `e` is why. -/
structure FirstFault (p : Partitioner) (fs : List Feature) (i : ℕ) (e : FeatureError) : Prop where
  fault : ∃ f, fs[i]? = some f ∧ bucket p f = .error e
  filed : ∀ j < i, ∀ f, fs[j]? = some f → ∀ e', bucket p f ≠ .error e'

theorem fault?_strict_eq_none_iff {o : Filing} : fault? false o = none ↔ ∀ e, o ≠ .error e := by
  cases o <;> simp [fault?]

theorem getElem?_looked {i : ℕ} (h : i < limit s fs.length) : (looked fs s)[i]? = fs[i]? :=
  List.getElem?_take_of_lt h

theorem findSome?_fault?_looked_iff {e : FeatureError} :
    (looked fs s).findSome? (fun f => fault? false (bucket p f)) = some e ↔
      ∃ i < limit s fs.length, FirstFault p fs i e := by
  rw [findSome?_eq_some_iff_getElem?]
  constructor
  · rintro ⟨i, f, hf, hfault, hbefore⟩
    have hi : i < limit s fs.length := by
      rw [← length_looked]
      exact (List.getElem?_eq_some_iff.1 hf).1
    refine ⟨i, hi, ⟨f, getElem?_looked hi ▸ hf, (fault?_eq_some_iff.1 hfault).2⟩, ?_⟩
    intro j hj g hg
    rw [← getElem?_looked (hj.trans hi)] at hg
    exact fault?_strict_eq_none_iff.1 (hbefore j hj g hg)
  · rintro ⟨i, hi, ⟨f, hf, hfault⟩, hfiled⟩
    refine ⟨i, f, getElem?_looked hi ▸ hf, fault?_eq_some_iff.2 ⟨rfl, hfault⟩, ?_⟩
    intro j hj g hg
    rw [getElem?_looked (hj.trans hi)] at hg
    exact fault?_strict_eq_none_iff.2 (hfiled j hj g hg)

/-! ## Runs -/

/-- **A lenient run** counts every outcome. -/
theorem features_lenient (fs : List Feature) (p : Partitioner) (s : Settings) :
    features fs p (s.withSkipInvalid true) = .ok (tallyOf p (looked fs s)) := by
  refine features_eq_ok_iff.2 ⟨fun f _ => ?_, rfl⟩
  cases bucket p f <;> rfl

theorem features_strict_eq_error_iff {e : FeatureError} :
    features fs p (s.withSkipInvalid false) = .error e ↔
      ∃ i < limit s fs.length, FirstFault p fs i e := by
  rw [← findSome?_fault?_looked_iff, features_eq]
  show ((looked fs s).findSome? fun f => fault? false (bucket p f)).elim _ _ = _ ↔ _
  cases (looked fs s).findSome? fun f => fault? false (bucket p f) <;> simp

theorem features_strict_eq_ok_iff {t : Tally} :
    features fs p (s.withSkipInvalid false) = .ok t ↔
      (∀ f ∈ looked fs s, ∀ e, bucket p f ≠ .error e) ∧
        features fs p (s.withSkipInvalid true) = .ok t := by
  rw [features_lenient, features_eq_ok_iff, Except.ok.injEq]
  exact and_congr_left' (forall₂_congr fun f _ => fault?_strict_eq_none_iff)

/-- **Strict mode refines lenient mode.** A lenient run has a tally. A strict run ends with a fault
exactly if some feature that is looked at cannot be filed, the fault is that of the first such
feature, and a strict run with a tally is a lenient run without faults. A feature is counted as
skipped in a strict run, whatever was counted before, exactly if there is no box around it. -/
theorem strict_refines_lenient (fs : List Feature) (p : Partitioner) (s : Settings) :
    (∃ t, features fs p (s.withSkipInvalid true) = .ok t) ∧
    ((∃ e, features fs p (s.withSkipInvalid false) = .error e) ↔
      ∃ f ∈ looked fs s, ∃ e, bucket p f = .error e) ∧
    (∀ e, features fs p (s.withSkipInvalid false) = .error e ↔
      ∃ i < limit s fs.length, FirstFault p fs i e) ∧
    (∀ t, features fs p (s.withSkipInvalid false) = .ok t ↔
      (∀ f ∈ looked fs s, ∀ e, bucket p f ≠ .error e) ∧
        features fs p (s.withSkipInvalid true) = .ok t) ∧
    ∀ (f : Feature) (t : Tally), count false t (bucket p f) = .ok t.recordSkipped ↔ f.Boxless := by
  refine ⟨⟨_, features_lenient fs p s⟩, ?_, fun e => features_strict_eq_error_iff,
    fun t => features_strict_eq_ok_iff, fun f t => count_strict_eq_recordSkipped_iff⟩
  rw [exists_features_eq_error_iff]
  show (∃ f ∈ looked fs s, ∃ e, fault? false (bucket p f) = some e) ↔ _
  simp only [fault?_eq_some_iff, true_and]

end Ingest

end GeoPartition
