import GeoPartition.Ingest
import GeoPartition.Proofs.Tally.Counts

/-!
# Ingestion in order

A run over some features ends with the first outcome that is a fault, or it counts all outcomes.
Counting is a fold whose steps can be exchanged, so the tally of a list does not depend on its
order, and a number that each outcome raises by one or leaves alone ends as the number of outcomes
that raise it (`measure_tallyOf`).
-/

namespace GeoPartition.Ingest

open GeoJson (Feature)

/-- The features that a run looks at. -/
def looked (fs : List Feature) (s : Settings) : List Feature := fs.take (limit s fs.length)

theorem length_looked (fs : List Feature) (s : Settings) :
    (looked fs s).length = limit s fs.length := by
  rw [looked, List.length_take, limit]
  cases s.maxFeatures with
  | none => exact Nat.min_self _
  | some n => simp

/-- What filing a feature comes to. -/
abbrev Filing := Except FeatureError (Option Bucket)

/-- The fault with which an outcome ends a run. -/
def fault? (skipInvalid : Bool) : Filing → Option FeatureError
  | .error e => if skipInvalid then none else some e
  | .ok _ => none

/-- The tally with one more outcome counted. -/
def tallied (t : Tally) : Filing → Tally
  | .ok (some b) => t.record b.path
  | .ok none | .error _ => t.recordSkipped

theorem count_eq (skipInvalid : Bool) (t : Tally) (o : Filing) :
    count skipInvalid t o = (fault? skipInvalid o).elim (.ok (tallied t o)) .error := by
  cases o with
  | error e => cases skipInvalid <;> rfl
  | ok b => cases b <;> rfl

theorem fault?_eq_some_iff {skipInvalid : Bool} {o : Filing} {e : FeatureError} :
    fault? skipInvalid o = some e ↔ skipInvalid = false ∧ o = .error e := by
  cases o <;> cases skipInvalid <;> simp [fault?]

/-- The outcomes of two features are counted in either order. -/
theorem tallied_tallied_comm (t : Tally) (o o' : Filing) :
    tallied (tallied t o) o' = tallied (tallied t o') o := by
  rcases o with e | _ | b <;> rcases o' with e' | _ | b' <;>
    first | rfl | exact Tally.record_record_comm t _ _

section tallyOf

variable (p : Partitioner)

/-- The tally of some features, of which none ends the run. -/
def tallyOf (l : List Feature) : Tally := l.foldl (fun t f => tallied t (bucket p f)) .empty

theorem tallyOf_concat (l : List Feature) (f : Feature) :
    tallyOf p (l ++ [f]) = tallied (tallyOf p l) (bucket p f) := by
  simp [tallyOf]

/-- **The order of the features does not matter.** -/
theorem tallyOf_perm {l l' : List Feature} (h : l.Perm l') : tallyOf p l = tallyOf p l' :=
  h.foldl_eq' (fun _ _ _ _ t => tallied_tallied_comm t _ _) .empty

/-- A number that an outcome raises by one or leaves alone counts the outcomes that raise it. -/
theorem measure_tallyOf {m : Tally → ℕ} {P : Feature → Bool} (h0 : m .empty = 0)
    (h : ∀ t f, m (tallied t (bucket p f)) = m t + if P f then 1 else 0) (l : List Feature) :
    m (tallyOf p l) = l.countP P := by
  induction l using List.reverseRecOn with
  | nil => simpa [tallyOf] using h0
  | append_singleton l f ih => rw [tallyOf_concat, h, ih, List.countP_append, List.countP_singleton]

/-! ## Runs -/

theorem foldlM_count (skipInvalid : Bool) (l : List Feature) (t : Tally) :
    l.foldlM (fun t f => count skipInvalid t (bucket p f)) t =
      (l.findSome? fun f => fault? skipInvalid (bucket p f)).elim
        (.ok (l.foldl (fun t f => tallied t (bucket p f)) t)) .error := by
  induction l generalizing t with
  | nil => rfl
  | cons f l ih =>
    rw [List.foldlM_cons, count_eq, List.findSome?_cons]
    cases fault? skipInvalid (bucket p f) with
    | none => exact ih _
    | some e => rfl

end tallyOf

variable {fs : List Feature} {p : Partitioner} {s : Settings}

/-- **A run in order** ends with the first fault, or counts everything. -/
theorem features_eq (fs : List Feature) (p : Partitioner) (s : Settings) :
    features fs p s = ((looked fs s).findSome? fun f => fault? s.skipInvalid (bucket p f)).elim
      (.ok (tallyOf p (looked fs s))) .error :=
  foldlM_count p s.skipInvalid (looked fs s) .empty

theorem features_eq_ok_iff {t : Tally} :
    features fs p s = .ok t ↔
      (∀ f ∈ looked fs s, fault? s.skipInvalid (bucket p f) = none) ∧
        tallyOf p (looked fs s) = t := by
  rw [features_eq, ← List.findSome?_eq_none_iff]
  cases (looked fs s).findSome? fun f => fault? s.skipInvalid (bucket p f) <;> simp

theorem exists_fault_of_features_eq_error {e : FeatureError} (h : features fs p s = .error e) :
    ∃ f ∈ looked fs s, fault? s.skipInvalid (bucket p f) = some e := by
  rw [features_eq] at h
  cases hfind : (looked fs s).findSome? fun f => fault? s.skipInvalid (bucket p f) with
  | none => simp [hfind] at h
  | some e' =>
    obtain rfl : e' = e := by simpa [hfind] using h
    exact List.exists_of_findSome?_eq_some hfind

theorem exists_features_eq_error_iff :
    (∃ e, features fs p s = .error e) ↔
      ∃ f ∈ looked fs s, ∃ e, fault? s.skipInvalid (bucket p f) = some e := by
  constructor
  · rintro ⟨e, he⟩
    obtain ⟨f, hf, hfault⟩ := exists_fault_of_features_eq_error he
    exact ⟨f, hf, e, hfault⟩
  · rintro ⟨f, hf, e, hfault⟩
    cases hfs : features fs p s with
    | error e' => exact ⟨e', rfl⟩
    | ok t =>
      rw [(features_eq_ok_iff.1 hfs).1 f hf] at hfault
      cases hfault

end GeoPartition.Ingest
