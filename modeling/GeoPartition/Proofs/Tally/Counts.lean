import GeoPartition.Proofs.Keyed
import GeoPartition.Tally.Summary

/-!
# Counting

Counts are their look-up function, so recordings can be exchanged. The sum of the counts of some
names grows with each recording by what was recorded for one of these names; the totals of a summary
are sums of this kind.
-/

namespace GeoPartition

namespace Counts

theorem lookup_add (c : Counts) (name : String) (n : ℕ) (k : String) :
    (c.add name n).toList.lookup k =
      if k = name then some (c.get name + n) else c.toList.lookup k := by
  rw [add, c.sorted.lookup_insertWith, get]
  cases c.toList.lookup name <;> simp

theorem ext_lookup {c d : Counts} (h : ∀ k, c.toList.lookup k = d.toList.lookup k) : c = d := by
  have := c.sorted.ext d.sorted h
  cases c
  cases d
  cases this
  rfl

theorem get_add (c : Counts) (name : String) (n : ℕ) (k : String) :
    (c.add name n).get k = c.get k + if k = name then n else 0 := by
  rw [get, lookup_add]
  by_cases h : k = name
  · simp [h]
  · simp [h, get]

/-- **Recordings can be exchanged.** -/
theorem add_add_comm (c : Counts) (a b : String) (m n : ℕ) :
    (c.add a m).add b n = (c.add b n).add a m := by
  apply ext_lookup
  intro k
  simp only [lookup_add, get_add]
  by_cases ha : k = a
  · subst ha
    by_cases hb : k = b
    · subst hb
      simp only [↓reduceIte]
      rw [Nat.add_right_comm]
    · simp [hb]
  · by_cases hb : k = b
    · subst hb
      simp [ha]
    · simp [ha, hb]

theorem add_pos {c : Counts} (h : ∀ e ∈ c.toList, 0 < e.2) (name : String) {n : ℕ} (hn : 0 < n) :
    ∀ e ∈ (c.add name n).toList, 0 < e.2 := by
  rintro ⟨k, v⟩ he
  rw [(c.add name n).sorted.mem_iff, lookup_add] at he
  by_cases hk : k = name
  · rw [if_pos hk, Option.some.injEq] at he
    show 0 < v
    omega
  · rw [if_neg hk, ← c.sorted.mem_iff] at he
    exact h (k, v) he

/-! ## Sums over some names -/

/-- The sum of the counts of the names that `P` selects. -/
def total (P : String → Bool) (c : Counts) : ℕ :=
  Summary.sumOf ((c.toList.filter fun e => P e.1).map (·.2))

theorem sumOf_cons (n : ℕ) (l : List ℕ) : Summary.sumOf (n :: l) = n + Summary.sumOf l := rfl

theorem sumOf_insertWith (P : String → Bool) (name : String) (n : ℕ) (l : List (String × ℕ)) :
    Summary.sumOf (((Keyed.insertWith (· + ·) name n l).filter fun e => P e.1).map (·.2)) =
      Summary.sumOf ((l.filter fun e => P e.1).map (·.2)) + if P name then n else 0 := by
  induction l with
  | nil => by_cases h : P name <;> simp [Keyed.insertWith, h, Summary.sumOf]
  | cons e l ih =>
    obtain ⟨k, old⟩ := e
    rw [Keyed.insertWith]
    by_cases hlt : name < k
    · rw [if_pos hlt]
      by_cases h : P name
      · simp [h, sumOf_cons, Nat.add_comm]
      · simp [h]
    · rw [if_neg hlt]
      by_cases heq : name = k
      · subst heq
        by_cases h : P name
        · simp [h, sumOf_cons, Nat.add_right_comm]
        · simp [h]
      · rw [if_neg heq]
        by_cases hk : P k
        · simp [hk, sumOf_cons, ih, Nat.add_assoc]
        · simp [hk, ih]

theorem total_add (P : String → Bool) (c : Counts) (name : String) (n : ℕ) :
    (c.add name n).total P = c.total P + if P name then n else 0 :=
  sumOf_insertWith P name n c.toList

end Counts

namespace Tally

theorem record_record_comm (t : Tally) (a b : String) :
    (t.record a).record b = (t.record b).record a := by
  simp only [record, recordMany, Counts.add_add_comm t.counts a b]

/-! ## The totals of a summary -/

theorem summary_overall_total (t : Tally) :
    t.summary.overall.total = t.counts.total fun _ => true := by
  simp [summary, Summary.Group.ofCounts, Counts.total]

theorem summary_regions_total (t : Tally) :
    t.summary.regions.total = t.counts.total Summary.isRegionName := by
  simp [summary, Summary.Group.ofCounts, Counts.total, List.partition_eq_filter_filter]

theorem summary_cells_total (t : Tally) :
    t.summary.cells.total = t.counts.total fun name => !Summary.isRegionName name := by
  simp [summary, Summary.Group.ofCounts, Counts.total, List.partition_eq_filter_filter,
    Function.comp_def]

end Tally

end GeoPartition
