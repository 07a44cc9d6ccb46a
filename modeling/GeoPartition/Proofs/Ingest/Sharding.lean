import GeoPartition.Proofs.Ingest.InOrder
import GeoPartition.Proofs.Tally.Merge

/-!
# Ingestion in parts

A list of features may be cut in two, and the parts run one after the other. The second run has what
the first has left of the limit.

**Theorem (`features_append`).** The run over the whole list ends with the fault of the first part,
or else with that of the second part, or else with the two tallies merged.

Wherever the limit falls, the features that the whole run looks at are those that the two runs look
at (`looked_append`). The first fault of a list in two parts is in the first part if there is one,
and the tally of a list in two parts is the merge of their tallies (`tallyOf_append`). Counts are
natural numbers, so no sum is too large.
-/

namespace GeoPartition

/-- The settings for the features behind the first `k`, which have used up as much of the limit. -/
def Settings.after (s : Settings) (k : ℕ) : Settings :=
  { s with maxFeatures := s.maxFeatures.map fun n => .ofNat (n.toNat - k) }

namespace Ingest

open GeoJson (Feature)

/-! ## The features looked at -/

theorem looked_eq (fs : List Feature) (s : Settings) :
    looked fs s = s.maxFeatures.elim fs fun n => fs.take n.toNat := by
  unfold looked limit
  cases s.maxFeatures with
  | none => exact List.take_length
  | some n => exact List.take_eq_take_min.symm

/-- **The limit** may fall into either part. -/
theorem looked_append (xs ys : List Feature) (s : Settings) :
    looked (xs ++ ys) s = looked xs s ++ looked ys (s.after xs.length) := by
  rw [looked_eq, looked_eq, looked_eq, Settings.after]
  cases s.maxFeatures with
  | none => rfl
  | some n =>
    have hn : (UInt64.ofNat (n.toNat - xs.length)).toNat = n.toNat - xs.length :=
      UInt64.toNat_ofNat_of_lt' ((Nat.sub_le _ _).trans_lt n.toNat_lt)
    simp only [Option.map_some, Option.elim_some, hn, List.take_append]

/-! ## Tallies -/

/-- One more outcome may be counted before a merge or after it. -/
theorem merge_tallied (t u : Tally) (o : Filing) : t.merge (tallied u o) = tallied (t.merge u) o := by
  rcases o with e | _ | b
  · exact Tally.merge_recordSkipped t u
  · exact Tally.merge_recordSkipped t u
  · exact Tally.merge_record t u b.path

/-- **Tallies of parts are merged.** -/
theorem tallyOf_append (p : Partitioner) (l m : List Feature) :
    tallyOf p (l ++ m) = (tallyOf p l).merge (tallyOf p m) := by
  induction m using List.reverseRecOn with
  | nil =>
    rw [List.append_nil]
    exact (Tally.merge_empty _).symm
  | append_singleton m f ih =>
    rw [← List.append_assoc, tallyOf_concat, tallyOf_concat, ih, merge_tallied]

/-! ## Runs -/

/-- **A run in two parts**: the second part is run if the first has a tally, and the two tallies are
merged. -/
theorem features_append_eq (xs ys : List Feature) (p : Partitioner) (s : Settings) :
    features (xs ++ ys) p s = do
      let t ← features xs p s
      let u ← features ys p (s.after xs.length)
      return t.merge u := by
  have hskip : (s.after xs.length).skipInvalid = s.skipInvalid := rfl
  rw [features_eq, features_eq, features_eq, looked_append, List.findSome?_append, tallyOf_append,
    hskip]
  cases (looked xs s).findSome? fun f => fault? s.skipInvalid (bucket p f) with
  | some e => rfl
  | none =>
    cases (looked ys (s.after xs.length)).findSome? fun f => fault? s.skipInvalid (bucket p f) with
    | some e => rfl
    | none => rfl

/-- **Sharding.** A run over a list in two parts ends with a fault exactly if the run over the first
part does, or that has a tally and the run over the second part, with what is left of the limit,
ends with the fault; and it ends with a tally exactly if both runs do, with their tallies merged. -/
theorem features_append (xs ys : List Feature) (p : Partitioner) (s : Settings) :
    (∀ e, features (xs ++ ys) p s = .error e ↔
      features xs p s = .error e ∨
        (∃ t, features xs p s = .ok t) ∧ features ys p (s.after xs.length) = .error e) ∧
    ∀ v, features (xs ++ ys) p s = .ok v ↔
      ∃ t u, features xs p s = .ok t ∧ features ys p (s.after xs.length) = .ok u ∧
        t.merge u = v := by
  rw [features_append_eq]
  cases features xs p s with
  | error e => simp [bind, Except.bind]
  | ok t =>
    cases features ys p (s.after xs.length) with
    | error e => simp [bind, Except.bind]
    | ok u => simp [bind, Except.bind, pure, Except.pure]

end Ingest

end GeoPartition
