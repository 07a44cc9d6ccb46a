import GeoPartition.Proofs.Tally.Counts

/-!
# Merging

A merge records the counts of the second tally one after the other in the first. Seen through
look-up, it adds the two counts of each name (`Counts.lookup_merge`). So a recording in the second
tally may as well be made after the merge (`Tally.merge_record`).
-/

namespace GeoPartition

namespace Counts

/-- Recording the counts of a list, seen at one name. -/
theorem lookup_foldl_add {l : List (String × ℕ)} (h : Keyed.Sorted l) (c : Counts) (k : String) :
    (l.foldl (fun c e => c.add e.1 e.2) c).toList.lookup k =
      (l.lookup k).elim (c.toList.lookup k) fun n => some (c.get k + n) := by
  induction l generalizing c with
  | nil => rfl
  | cons e l ih =>
    obtain ⟨first, n⟩ := e
    obtain ⟨hfirst, hl⟩ := List.pairwise_cons.1 h
    rw [List.foldl_cons, ih hl, Keyed.lookup_cons, get_add, lookup_add]
    by_cases hk : k = first
    · -- The name comes before all others, so its count is not touched again.
      subst hk
      rw [Keyed.lookup_eq_none hfirst]
      simp
    · simp [hk]

theorem lookup_merge (c d : Counts) (k : String) :
    (c.merge d).toList.lookup k =
      (d.toList.lookup k).elim (c.toList.lookup k) fun n => some (c.get k + n) :=
  lookup_foldl_add d.sorted c k

/-- **A merge adds counts.** -/
theorem get_merge (c d : Counts) (k : String) : (c.merge d).get k = c.get k + d.get k := by
  unfold get
  rw [lookup_merge]
  cases d.toList.lookup k <;> simp [get]

/-- A recording may be made before a merge or after it. -/
theorem merge_add (c d : Counts) (name : String) (n : ℕ) :
    c.merge (d.add name n) = (c.merge d).add name n := by
  apply ext_lookup
  intro k
  rw [lookup_merge, lookup_add, lookup_add, lookup_merge, get_merge]
  by_cases hk : k = name
  · subst hk
    simp [Nat.add_assoc]
  · simp [hk]

end Counts

namespace Tally

theorem merge_empty (t : Tally) : t.merge empty = t := rfl

theorem merge_record (t u : Tally) (bucket : String) :
    t.merge (u.record bucket) = (t.merge u).record bucket := by
  simp only [merge, record, recordMany, Counts.merge_add]

theorem merge_recordSkipped (t u : Tally) :
    t.merge u.recordSkipped = (t.merge u).recordSkipped := by
  simp only [merge, recordSkipped, Nat.add_assoc]

end Tally

end GeoPartition
