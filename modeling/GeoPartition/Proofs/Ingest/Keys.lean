import GeoPartition.Proofs.Bucket.Naming
import GeoPartition.Proofs.Ingest.Accounting

/-!
# The keys of a tally

Partition keys name directories, so no run may leave behind any other key.

**Theorem (`keys_wellFormed`).** Every name in the tally of a run is the name of a region, or it has
one to as many symbols of the alphabet as the partitioner's precision, with separators between them.

A name is in a tally only because a feature was counted under it (`exists_bucket_of_mem_tallyOf`).
Then it is the path of the bucket of a box. The codes of the corners have a common beginning if that
bucket is a cell: not an empty one, as their first symbols agree, and none longer than a code.
-/

namespace GeoPartition

/-- Is a text the name of a region, or one to `n` symbols of the alphabet with separators between
them? -/
def Bucket.IsKey (n : ℕ) (name : String) : Prop :=
  name ∈ Region.names ∨
    ∃ s : Code, 1 ≤ s.length ∧ s.length ≤ n ∧ (∀ c ∈ s, c ∈ Geohash.alphabet) ∧
      name = String.ofList (s.intersperse separator)

theorem Bucket.IsKey.ne_empty {n : ℕ} {name : String} (h : IsKey n name) : name ≠ "" := by
  rintro rfl
  rcases h with hname | ⟨s, hs, -, -, hpath⟩
  · obtain ⟨r, -, hpath⟩ := List.mem_map.1 hname
    cases (path_eq_empty_iff (b := region r) (by simp)).1 hpath
  · have hcell : cell s ≠ cell [] := by
      rintro ⟨⟩
      exact absurd hs (by decide)
    cases (path_eq_empty_iff hcell).1 hpath.symm

namespace Partitioner

open Geohash (code length_code mem_alphabet_of_mem_code)

variable {p : Partitioner}

/-- The path of the bucket between two encoded corners. -/
theorem bucketBetween_isKey (p : Partitioner) (a c : Coordinate) :
    Bucket.IsKey p.precision (p.bucketBetween a c).path := by
  have hregion : ∀ r : Region, Bucket.IsKey p.precision (Bucket.region r).path :=
    fun r => .inl (List.mem_map_of_mem r.mem_values)
  rw [bucketBetween_eq]
  split_ifs with hhead
  · have hcode : code p.precision a ≠ [] :=
      List.ne_nil_of_length_pos ((length_code p.precision a).symm ▸ p.one_le)
    have hshared := commonPrefix_prefix_left (code p.precision a) (code p.precision c)
    refine .inr ⟨_, List.length_pos_iff.2 (commonPrefix_ne_nil hhead hcode), ?_, ?_, rfl⟩
    · exact hshared.length_le.trans_eq (length_code p.precision a)
    · exact fun s hs => mem_alphabet_of_mem_code (hshared.subset hs)
  · exact hregion _
  · exact hregion _

theorem bucketOfRect_isKey {r : Rect} {b : Bucket} (h : p.bucketOfRect r = .ok b) :
    Bucket.IsKey p.precision b.path := by
  obtain ⟨-, -, rfl⟩ := bucketOfRect_eq_ok_iff.1 h
  exact bucketBetween_isKey p _ _

end Partitioner

namespace Ingest

open GeoJson (Feature)

variable {fs : List Feature} {p : Partitioner} {s : Settings}

/-- **Names are paths.** Each name in a tally is the path of the bucket of a counted feature. -/
theorem exists_bucket_of_mem_tallyOf {l : List Feature} {e : String × ℕ}
    (h : e ∈ (tallyOf p l).counts.toList) :
    ∃ f ∈ l, ∃ b, bucket p f = .ok (some b) ∧ b.path = e.1 := by
  have hcount : (tallyOf p l).count e.1 = e.2 := by
    rw [Tally.count, Counts.get, (tallyOf p l).counts.sorted.mem_iff.1 h]
    rfl
  have hpos := pos_of_mem_tallyOf p l e h
  rw [← hcount, count_tallyOf, List.countP_pos_iff] at hpos
  obtain ⟨f, hf, hfiled⟩ := hpos
  refine ⟨f, hf, ?_⟩
  unfold filedAs at hfiled
  rcases hb : bucket p f with x | _ | b
  · simp [hb] at hfiled
  · simp [hb] at hfiled
  · exact ⟨b, rfl, by simpa [hb] using hfiled⟩

/-- **Keys are well formed.** Each name in a tally with which a run ends is that of a region, or the
path of one to as many symbols of the alphabet as the precision; in particular it is not empty. -/
theorem keys_wellFormed {t : Tally} (h : IsAnswer fs p s (.ok t)) :
    ∀ e ∈ t.counts.toList, Bucket.IsKey p.precision e.1 ∧ e.1 ≠ "" := by
  obtain ⟨-, rfl⟩ := features_eq_ok_iff.1 (isAnswer_ok_iff.1 h)
  intro e he
  obtain ⟨f, -, b, hb, hpath⟩ := exists_bucket_of_mem_tallyOf he
  obtain ⟨r, hr⟩ := exists_bucketOfRect_of_bucket hb
  have hkey : Bucket.IsKey p.precision e.1 := hpath ▸ Partitioner.bucketOfRect_isKey hr
  exact ⟨hkey, hkey.ne_empty⟩

set_option maxRecDepth 2000 in
/-- A region and a cell with as many symbols as the precision allows. -/
theorem keys_wellFormed_fourFeatures :
    ∃ t, IsAnswer fourFeatures ⟨2, by decide, by decide⟩ strictThree (.ok t) ∧
      t.counts.toList = [("North", 1), ("s/4", 1)] ∧
      ∀ name ∈ ["North", "s/4"], Bucket.IsKey 2 name ∧ name ≠ "" := by
  have ht : IsAnswer fourFeatures ⟨2, by decide, by decide⟩ strictThree
      (.ok ((Tally.empty.record "s/4").record "North").recordSkipped) :=
    isAnswer_ok_iff.2 (by decide)
  have hkeys := keys_wellFormed ht
  refine ⟨_, ht, by decide, ?_⟩
  simp only [List.forall_mem_cons]
  exact ⟨hkeys ("North", 1) (by decide), hkeys ("s/4", 1) (by decide), nofun⟩

end Ingest

end GeoPartition
