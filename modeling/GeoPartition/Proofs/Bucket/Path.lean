import GeoPartition.Proofs.Bucket.Codes
import GeoPartition.Tally.Summary

/-!
# Reading paths back

A summary has only the paths of buckets to tell regions from cells.

**Kinds (`ofName?_path`).** The name of a region has at least two characters and no separator; the
path of a cell has a separator, or at most one character. So a path that is the name of a region is
that of the region.

**Cutting (`cutPath_path`).** A bucket cut to its first symbols has the path cut to its first
segments; regions have one segment and stay.
-/

namespace GeoPartition

/-! ## The names of regions -/

namespace Region

theorem ofName?_name (r : Region) : ofName? r.name = some r := by
  cases r with
  | quadrant q => cases q <;> decide
  | _ => decide

theorem name_of_ofName? {s : String} {r : Region} (h : ofName? s = some r) : r.name = s := by
  simpa using List.find?_some h

theorem separator_notMem_name (r : Region) : Bucket.separator ∉ r.name.toList := by
  cases r with
  | quadrant q => cases q <;> decide
  | _ => decide

theorem two_le_length_name (r : Region) : 2 ≤ r.name.toList.length := by
  cases r with
  | quadrant q => cases q <;> decide
  | _ => decide

end Region

namespace Bucket

def isCell : Bucket → Bool
  | cell _ => true
  | _ => false

theorem separator_mem_or_length_le_one (s : Code) :
    separator ∈ s.intersperse separator ∨ (s.intersperse separator).length ≤ 1 := by
  match s with
  | [] => exact .inr (Nat.zero_le 1)
  | [_] => exact .inr le_rfl
  | _ :: _ :: _ => exact .inl (by simp)

/-- **Only regions have the paths of regions.** -/
theorem ofName?_path {b : Bucket} {r : Region} : Region.ofName? b.path = some r ↔ b = region r := by
  constructor
  · intro h
    have hname := Region.name_of_ofName? h
    have hlen := r.two_le_length_name
    cases b with
    | region r' =>
      rw [path, Region.ofName?_name, Option.some.injEq] at h
      rw [h]
    | cell s =>
      have hsep := r.separator_notMem_name
      rw [hname, path, String.toList_ofList] at hsep hlen
      rcases separator_mem_or_length_le_one s with hmem | hle
      · exact absurd hmem hsep
      · omega
    | unclassified =>
      rw [hname] at hlen
      exact absurd hlen (by decide)
  · rintro rfl
    exact Region.ofName?_name r

/-- The kind of a bucket can be told from its path. -/
theorem isRegionName_path (b : Bucket) : Summary.isRegionName b.path = b.isRegion := by
  rw [Bool.eq_iff_iff, Summary.isRegionName, Option.isSome_iff_exists]
  constructor
  · rintro ⟨r, hr⟩
    rw [ofName?_path.1 hr]
    rfl
  · intro h
    cases b with
    | region r => exact ⟨r, ofName?_path.2 rfl⟩
    | _ => cases h

/-! ## Cutting -/

/-- The bucket with at most `n` symbols. -/
def truncate (n : ℕ) : Bucket → Bucket
  | cell symbols => cell (symbols.take n)
  | b => b

/-- The first `n` segments of a path. -/
def cutPath (n : ℕ) (name : String) : String :=
  String.ofList ([separator].intercalate ((name.toList.splitOn separator).take n))

theorem intersperse_eq_intercalate {α : Type} (sep : α) (s : List α) :
    s.intersperse sep = [sep].intercalate (s.map fun c => [c]) := by
  induction s with
  | nil => rfl
  | cons c s ih =>
    cases s with
    | nil => simp
    | cons d s => simpa using ih

/-- The segments of the path of a cell are its symbols. -/
theorem splitOn_toList_path {s : Code} (hs : s ≠ []) (h : separator ∉ s) :
    (cell s).path.toList.splitOn separator = s.map fun c => [c] := by
  rw [path, String.toList_ofList, intersperse_eq_intercalate]
  refine List.splitOn_intercalate separator ?_ (by simpa using hs)
  intro l hl
  obtain ⟨c, hc, rfl⟩ := List.mem_map.1 hl
  rintro hmem
  rw [List.mem_singleton] at hmem
  exact h (hmem ▸ hc)

theorem cutPath_of_notMem {n : ℕ} (hn : 1 ≤ n) {name : String} (h : separator ∉ name.toList) :
    cutPath n name = name := by
  rw [cutPath, List.splitOn_eq_singleton h, List.take_of_length_le (by simpa using hn)]
  simp

/-- **Cutting a bucket cuts its path.** -/
theorem cutPath_path {n : ℕ} (hn : 1 ≤ n) {b : Bucket} (h : separator ∉ b.segments) :
    cutPath n b.path = (b.truncate n).path := by
  cases b with
  | region r => exact cutPath_of_notMem hn r.separator_notMem_name
  | unclassified => exact cutPath_of_notMem hn List.not_mem_nil
  | cell s =>
    by_cases hs : s = []
    · have hempty : cutPath n "" = "" := cutPath_of_notMem hn List.not_mem_nil
      subst hs
      simpa [truncate, path] using hempty
    · rw [cutPath, splitOn_toList_path hs h, ← List.map_take, ← intersperse_eq_intercalate]
      rfl

end Bucket

end GeoPartition
