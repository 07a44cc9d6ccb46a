import GeoPartition.Proofs.Tally.Monoid

/-!
# Summaries

A summary is made in one pass over the buckets in no particular order: each bucket is taken into the
group of all and into that of the regions or that of the cells, and the means are put in at the end.

**Theorem (`summary_partitions_counts`).** Regions and cells part the buckets: the totals and the
numbers of buckets of the two groups add up to those of all. The mean of all lies between the means
of the groups, or is that of the only group with a bucket. No mean takes a division by zero, which
would have no result. Totals are added by a merge; numbers of buckets are not, as both tallies may
have the same bucket.

The pass keeps as its invariant that the summary so far has the sums of the entries taken in
(`grow?_sums`). No number of a group is greater than that of all, so numbers of 64 bits are enough
if they are for the whole.
-/

namespace GeoPartition

/-! ## Totals -/

theorem Summary.isRegionName_iff {name : String} :
    isRegionName name = true ↔ name ∈ Region.names := by
  simp [isRegionName, Region.ofName?, Region.names]

namespace Counts

theorem sum_map_single (names : List String) (name : String) (n : ℕ) :
    (names.map fun k => if k = name then n else 0).sum = names.count name * n := by
  induction names with
  | nil => simp
  | cons k names ih =>
    rw [List.map_cons, List.sum_cons, ih, List.count_cons, Nat.add_mul, Nat.add_comm]
    by_cases hk : k = name <;> simp [hk]

/-- The counts of some names, each taken once, are what is counted under these names. -/
theorem sum_map_get {names : List String} (h : names.Nodup) (c : Counts) :
    (names.map c.get).sum = c.total (· ∈ names) := by
  obtain ⟨l, hl⟩ := c
  show (names.map fun k => (l.lookup k).getD 0).sum = ((l.filter (·.1 ∈ names)).map (·.2)).sum
  induction l with
  | nil => simp
  | cons e l ih =>
    obtain ⟨first, n⟩ := e
    obtain ⟨hfirst, hl⟩ := List.pairwise_cons.1 hl
    -- The first name is not met again, so its count is added to what the others have.
    have hlookup : ∀ k, (((first, n) :: l).lookup k).getD 0 =
        (if k = first then n else 0) + (l.lookup k).getD 0 := by
      intro k
      rw [Keyed.lookup_cons]
      by_cases hk : k = first
      · subst hk
        simp [Keyed.lookup_eq_none hfirst]
      · simp [hk]
    simp only [hlookup]
    rw [List.sum_map_add, sum_map_single, ih hl, h.count]
    by_cases hmem : first ∈ names <;> simp [hmem]

theorem total_names (c : Counts) : (c.names.map c.get).sum = c.total fun _ => true := by
  rw [sum_map_get c.nodup_names, total, total]
  congr 2
  refine List.filter_congr fun e he => ?_
  exact decide_eq_true (List.mem_map_of_mem he)

theorem total_merge (P : String → Bool) (c d : Counts) :
    (c.merge d).total P = c.total P + d.total P := by
  have hfold : ∀ (l : List (String × ℕ)) (c : Counts),
      (l.foldl (fun c e => c.add e.1 e.2) c).total P =
        c.total P + ((l.filter fun e => P e.1).map (·.2)).sum := by
    intro l
    induction l with
    | nil => simp
    | cons e l ih =>
      intro c
      rw [List.foldl_cons, ih, total_add]
      by_cases h : P e.1 <;> simp [h, Nat.add_assoc]
  exact hfold d.toList c

end Counts

/-! ## Groups -/

namespace Summary

theorem mean?_eq (total count : ℕ) : mean? total count = some (mean total count) :=
  (Option.some_get _).symm

/-- A mean is a quotient where there is something to divide by. -/
theorem mean_eq_div {count : ℕ} (h : count ≠ 0) (total : ℕ) : mean total count = total / count := by
  have hdivide : mean? total count = some (total / count) := by
    rw [mean?, if_neg h, divide?, if_neg h]
  exact Option.some.inj ((mean?_eq total count).symm.trans hdivide)

theorem mean_le (total count : ℕ) : mean total count ≤ total := by
  by_cases h : count = 0
  · subst h
    exact Nat.zero_le total
  · rw [mean_eq_div h]
    exact Nat.div_le_self total count

namespace Group

/-- Is the average the mean of the counts, rounded down? A group without buckets is all zero. -/
structure IsMean (g : Group) : Prop where
  empty : g.buckets = 0 → g.total = 0 ∧ g.average = 0
  rounded : 0 < g.buckets →
    g.average * g.buckets ≤ g.total ∧ g.total < (g.average + 1) * g.buckets

theorem isMean_ofCounts (counts : List ℕ) : (ofCounts counts).IsMean where
  empty h := by
    obtain rfl := List.length_eq_zero_iff.1 h
    exact ⟨rfl, rfl⟩
  rounded h := by
    have haverage : (ofCounts counts).average = sumOf counts / counts.length :=
      mean_eq_div (Nat.ne_of_gt h) _
    rw [haverage]
    refine ⟨Nat.div_mul_le_self _ _, ?_⟩
    rw [Nat.mul_comm]
    exact Nat.lt_mul_div_succ _ h

theorem IsMean.average_eq {g : Group} (h : g.IsMean) : g.average = g.total / g.buckets := by
  rcases Nat.eq_zero_or_pos g.buckets with h0 | hpos
  · rw [(h.empty h0).2, h0, Nat.div_zero]
  · obtain ⟨hlo, hhi⟩ := h.rounded hpos
    exact (Nat.div_eq_of_lt_le hlo hhi).symm

/-- Do two groups part a third? -/
structure Parts (g a b : Group) : Prop where
  total : g.total = a.total + b.total
  buckets : g.buckets = a.buckets + b.buckets

theorem Parts.symm {g a b : Group} (h : g.Parts a b) : g.Parts b a where
  total := h.total.trans (Nat.add_comm _ _)
  buckets := h.buckets.trans (Nat.add_comm _ _)

variable {g a b : Group} (h : g.Parts a b) (hg : g.IsMean) (ha : a.IsMean) (hb : b.IsMean)

include h hg ha hb

/-- **The mean of all** lies between the means of two groups. -/
theorem Parts.average_between (hapos : 0 < a.buckets) (hbpos : 0 < b.buckets) :
    min a.average b.average ≤ g.average ∧ g.average ≤ max a.average b.average := by
  obtain ⟨halo, hahi⟩ := ha.rounded hapos
  obtain ⟨hblo, hbhi⟩ := hb.rounded hbpos
  obtain ⟨hglo, hghi⟩ := hg.rounded (by rw [h.buckets]; omega)
  rw [h.total, h.buckets] at hglo hghi
  constructor
  · have hlow : min a.average b.average * (a.buckets + b.buckets) ≤ a.total + b.total := by
      rw [Nat.mul_add]
      exact Nat.add_le_add ((Nat.mul_le_mul_right _ (min_le_left _ _)).trans halo)
        ((Nat.mul_le_mul_right _ (min_le_right _ _)).trans hblo)
    exact Nat.lt_succ_iff.1 (Nat.lt_of_mul_lt_mul_right (hlow.trans_lt hghi))
  · have hhigh : a.total + b.total < (max a.average b.average + 1) * (a.buckets + b.buckets) := by
      rw [Nat.mul_add]
      exact Nat.add_lt_add
        (hahi.trans_le (Nat.mul_le_mul_right _ (Nat.succ_le_succ (le_max_left _ _))))
        (hbhi.trans_le (Nat.mul_le_mul_right _ (Nat.succ_le_succ (le_max_right _ _))))
    exact Nat.lt_succ_iff.1 (Nat.lt_of_mul_lt_mul_right (hglo.trans_lt hhigh))

/-- The only group with a bucket has the mean of all. -/
theorem Parts.average_of_empty (hbzero : b.buckets = 0) : g.average = a.average := by
  have htotal : g.total = a.total := by rw [h.total, (hb.empty hbzero).1, Nat.add_zero]
  have hbuckets : g.buckets = a.buckets := by rw [h.buckets, hbzero, Nat.add_zero]
  rw [hg.average_eq, ha.average_eq, htotal, hbuckets]

end Group

/-! ## One pass -/

namespace Group

/-- The group of some counts before its mean is put in. -/
def sums (counts : List ℕ) : Group := ⟨counts.sum, counts.length, 0⟩

/-- Takes in one more bucket, unless a number becomes too large for 64 bits. -/
def grow? (g : Group) (n : ℕ) : Option Group :=
  if g.total + n < UInt64.size ∧ g.buckets + 1 < UInt64.size then
    some { g with total := g.total + n, buckets := g.buckets + 1 }
  else none

/-- Puts in the mean, unless that takes a division by zero. -/
def withMean? (g : Group) : Option Group :=
  (mean? g.total g.buckets).map fun average => { g with average }

/-- **No mean takes a division by zero.** -/
theorem withMean?_sums (counts : List ℕ) : (sums counts).withMean? = some (ofCounts counts) := by
  rw [withMean?, mean?_eq, Option.map_some]
  rfl

/-- There is room for a bucket if there is room for all of which it is one. -/
theorem grow?_sums {counts all : List ℕ} {n : ℕ} (hsub : (counts ++ [n]).Sublist all)
    (hsum : all.sum < UInt64.size) (hlength : all.length < UInt64.size) :
    (sums counts).grow? n = some (sums (counts ++ [n])) := by
  have hsum' := (hsub.sum_le_sum fun _ _ => Nat.zero_le _).trans_lt hsum
  have hlength' := hsub.length_le.trans_lt hlength
  rw [List.sum_append, List.sum_singleton] at hsum'
  rw [List.length_append, List.length_singleton] at hlength'
  rw [grow?, if_pos ⟨hsum', hlength'⟩]
  simp [sums]

end Group

/-- The summary of some entries before its means are put in. -/
def sums (skipped : ℕ) (entries : List (String × ℕ)) : Summary where
  overall := .sums (entries.map (·.2))
  regions := .sums ((entries.filter fun e => isRegionName e.1).map (·.2))
  cells := .sums ((entries.filter fun e => !isRegionName e.1).map (·.2))
  skipped := skipped

theorem sums_perm {skipped : ℕ} {l m : List (String × ℕ)} (h : l.Perm m) :
    sums skipped l = sums skipped m := by
  have hgroup {l m : List (String × ℕ)} (h : l.Perm m) :
      Group.sums (l.map (·.2)) = Group.sums (m.map (·.2)) := by
    rw [Group.sums, Group.sums, (h.map (·.2)).sum_eq, (h.map (·.2)).length_eq]
  rw [sums, sums, hgroup h, hgroup (h.filter _), hgroup (h.filter _)]

/-- Takes one more entry into the group of all and into that of its kind. -/
def grow? (s : Summary) (e : String × ℕ) : Option Summary := do
  let overall ← s.overall.grow? e.2
  if isRegionName e.1 then
    let regions ← s.regions.grow? e.2
    pure { s with overall, regions }
  else
    let cells ← s.cells.grow? e.2
    pure { s with overall, cells }

/-- Puts in the three means. -/
def withMeans? (s : Summary) : Option Summary := do
  let overall ← s.overall.withMean?
  let regions ← s.regions.withMean?
  let cells ← s.cells.withMean?
  pure { s with overall, regions, cells }

/-- The summary of some entries, made in one pass with numbers of 64 bits and divisions by numbers
that are not zero. -/
def ofEntries? (skipped : ℕ) (entries : List (String × ℕ)) : Option Summary :=
  entries.foldlM grow? (sums skipped []) >>= withMeans?

section pass

variable {skipped : ℕ}

/-- **One entry** keeps the sums of the entries taken in. -/
theorem grow?_sums {entries : List (String × ℕ)} {e : String × ℕ}
    (hsum : ((entries ++ [e]).map (·.2)).sum < UInt64.size)
    (hlength : (entries ++ [e]).length < UInt64.size) :
    (sums skipped entries).grow? e = some (sums skipped (entries ++ [e])) := by
  have hlength' : ((entries ++ [e]).map (·.2)).length < UInt64.size := by
    rwa [List.length_map]
  have hgroup (P : String × ℕ → Bool) (hP : P e = true) :
      (Group.sums ((entries.filter P).map (·.2))).grow? e.2 =
        some (Group.sums (((entries ++ [e]).filter P).map (·.2))) := by
    have hsub := (List.filter_sublist (p := P) (l := entries ++ [e])).map (·.2)
    rw [List.filter_append, List.filter_singleton, hP, cond_true, List.map_append] at hsub ⊢
    exact Group.grow?_sums hsub hsum hlength'
  have hoverall := hgroup (fun _ => true) rfl
  simp only [List.filter_true] at hoverall
  by_cases hregion : isRegionName e.1 = true
  · have hregions := hgroup (fun e => isRegionName e.1) hregion
    simp [grow?, sums, hoverall, hregion, hregions]
  · have hcell : isRegionName e.1 = false := Bool.eq_false_of_not_eq_true hregion
    have hcells := hgroup (fun e => !isRegionName e.1) (by simp [hcell])
    simp [grow?, sums, hoverall, hcell, hcells]

/-- **A whole pass** has the sums of all entries. -/
theorem foldlM_grow?_sums {entries done : List (String × ℕ)}
    (hsum : ((done ++ entries).map (·.2)).sum < UInt64.size)
    (hlength : (done ++ entries).length < UInt64.size) :
    entries.foldlM grow? (sums skipped done) = some (sums skipped (done ++ entries)) := by
  induction entries generalizing done with
  | nil => simp
  | cons e entries ih =>
    rw [List.append_cons] at hsum hlength ⊢
    have hfirst := List.sublist_append_left (done ++ [e]) entries
    have hsum' := ((hfirst.map (·.2)).sum_le_sum fun _ _ => Nat.zero_le _).trans_lt hsum
    rw [List.foldlM_cons, grow?_sums hsum' (hfirst.length_le.trans_lt hlength)]
    exact ih hsum hlength

end pass

end Summary

/-! ## Summaries of tallies -/

/-- The sums of a tally have 64 bits: of its counts, its buckets and the features it skipped. -/
structure Tally.Fits (t : Tally) : Prop where
  total : t.summary.overall.total < UInt64.size
  buckets : t.counts.size < UInt64.size
  skipped : t.skipped < UInt64.size

namespace Tally

open Summary (Group)

variable (t : Tally)

/-- **The means can be put in**, and give the summary. -/
theorem withMeans?_sums :
    (Summary.sums t.skipped t.counts.toList).withMeans? = some t.summary := by
  simp only [Summary.sums, Summary.withMeans?, Group.withMean?_sums, summary,
    List.partition_eq_filter_filter, Option.bind_eq_bind, Option.bind_some]
  rfl

theorem summary_isMean :
    t.summary.overall.IsMean ∧ t.summary.regions.IsMean ∧ t.summary.cells.IsMean :=
  ⟨Group.isMean_ofCounts _, Group.isMean_ofCounts _, Group.isMean_ofCounts _⟩

/-- Every average is a mean that is there. -/
theorem summary_mean? : ∀ g ∈ [t.summary.overall, t.summary.regions, t.summary.cells],
    Summary.mean? g.total g.buckets = some g.average := by
  simp only [List.forall_mem_cons]
  exact ⟨Summary.mean?_eq _ _, Summary.mean?_eq _ _, Summary.mean?_eq _ _, nofun⟩

theorem summary_parts : t.summary.overall.Parts t.summary.regions t.summary.cells := by
  have hperm := (List.filter_append_perm (fun e => Summary.isRegionName e.1)
    t.counts.toList).symm.map (·.2)
  rw [List.map_append] at hperm
  rw [summary, List.partition_eq_filter_filter]
  exact ⟨hperm.sum_eq.trans List.sum_append, hperm.length_eq.trans List.length_append⟩

theorem total_eq_sum_count :
    t.summary.overall.total = (t.counts.names.map t.count).sum ∧
      t.summary.regions.total = (Region.names.map t.count).sum := by
  have hnames : Region.names.Nodup := by decide
  constructor
  · rw [summary_overall_total]
    exact t.counts.total_names.symm
  · rw [summary_regions_total]
    have hregion : Summary.isRegionName = fun name => decide (name ∈ Region.names) := by
      funext name
      rw [Bool.eq_iff_iff, decide_eq_true_iff]
      exact Summary.isRegionName_iff
    rw [hregion]
    exact (Counts.sum_map_get hnames t.counts).symm

theorem summary_merge_totals (t u : Tally) :
    (t.merge u).summary.overall.total = t.summary.overall.total + u.summary.overall.total ∧
    (t.merge u).summary.regions.total = t.summary.regions.total + u.summary.regions.total ∧
    (t.merge u).summary.cells.total = t.summary.cells.total + u.summary.cells.total := by
  simp only [summary_overall_total, summary_regions_total, summary_cells_total]
  exact ⟨Counts.total_merge _ _ _, Counts.total_merge _ _ _, Counts.total_merge _ _ _⟩

/-- **Any order of the buckets** gives the summary, if its sums have 64 bits. -/
theorem ofEntries?_eq {t : Tally} (ht : t.Fits) {entries : List (String × ℕ)}
    (h : entries.Perm t.counts.toList) : Summary.ofEntries? t.skipped entries = some t.summary := by
  have hsum : (entries.map (·.2)).sum < UInt64.size := by
    rw [(h.map (·.2)).sum_eq]
    exact ht.total
  have hlength : entries.length < UInt64.size := h.length_eq.trans_lt ht.buckets
  have hpass : entries.foldlM Summary.grow? (Summary.sums t.skipped []) =
      some (Summary.sums t.skipped entries) :=
    Summary.foldlM_grow?_sums hsum hlength
  rw [Summary.ofEntries?, hpass, Summary.sums_perm h]
  exact t.withMeans?_sums

/-- **A summary parts the counts.** The total is the sum of all counts, and that of the regions the
sum over their names. Regions and cells have all buckets and all counts between them. Each average
is the mean of its group rounded down, and zero for a group without buckets, for which nothing is
divided by zero; that of all lies between those of the two groups, or is that of the only one with a
bucket. One pass over the buckets in any order makes the summary, if its sums have 64 bits. A merge
adds totals and skips. -/
theorem summary_partitions_counts :
    (∀ t : Tally,
      t.summary.overall.total = (t.counts.names.map t.count).sum ∧
      t.summary.regions.total = (Region.names.map t.count).sum ∧
      t.summary.overall.Parts t.summary.regions t.summary.cells ∧
      t.summary.overall.buckets = t.counts.size ∧
      (t.summary.overall.IsMean ∧ t.summary.regions.IsMean ∧ t.summary.cells.IsMean) ∧
      (∀ g ∈ [t.summary.overall, t.summary.regions, t.summary.cells],
        Summary.mean? g.total g.buckets = some g.average) ∧
      (0 < t.summary.regions.buckets → 0 < t.summary.cells.buckets →
        min t.summary.regions.average t.summary.cells.average ≤ t.summary.overall.average ∧
        t.summary.overall.average ≤ max t.summary.regions.average t.summary.cells.average) ∧
      (t.summary.cells.buckets = 0 → t.summary.overall.average = t.summary.regions.average) ∧
      (t.summary.regions.buckets = 0 → t.summary.overall.average = t.summary.cells.average) ∧
      (t.Fits → ∀ entries : List (String × ℕ), entries.Perm t.counts.toList →
        Summary.ofEntries? t.skipped entries = some t.summary)) ∧
    ∀ t u : Tally,
      (t.merge u).summary.overall.total = t.summary.overall.total + u.summary.overall.total ∧
      (t.merge u).summary.regions.total = t.summary.regions.total + u.summary.regions.total ∧
      (t.merge u).summary.cells.total = t.summary.cells.total + u.summary.cells.total ∧
      (t.merge u).summary.skipped = t.summary.skipped + u.summary.skipped := by
  refine ⟨fun t => ?_, fun t u => ?_⟩
  · obtain ⟨hoverall, hregions⟩ := t.total_eq_sum_count
    obtain ⟨hmean, hmeanRegions, hmeanCells⟩ := t.summary_isMean
    have hparts := t.summary_parts
    exact ⟨hoverall, hregions, hparts, List.length_map _, t.summary_isMean, t.summary_mean?,
      hparts.average_between hmean hmeanRegions hmeanCells,
      hparts.average_of_empty hmean hmeanRegions hmeanCells,
      hparts.symm.average_of_empty hmean hmeanCells hmeanRegions,
      fun ht entries => ofEntries?_eq ht⟩
  · obtain ⟨hoverall, hregions, hcells⟩ := summary_merge_totals t u
    exact ⟨hoverall, hregions, hcells, rfl⟩

/-- Two regions and three cells. -/
def twoRegions : Tally :=
  ((((empty.recordMany "North" 10).recordMany "SW" 4).recordMany "e" 3).recordMany "s" 3).recordMany
    "u/4/p" 6

/-- The average of all is between those of the regions and the cells, and without the regions it is
that of the cells. -/
theorem summary_partitions_counts_twoRegions :
    (twoRegions.summary.regions.average = 7 ∧ twoRegions.summary.cells.average = 4 ∧
      4 ≤ twoRegions.summary.overall.average ∧ twoRegions.summary.overall.average ≤ 7) ∧
    (empty.recordMany "s" 3).summary.overall.average =
      (empty.recordMany "s" 3).summary.cells.average ∧
    Summary.ofEntries? 0 [("u/4/p", 6), ("North", 10), ("e", 3), ("SW", 4), ("s", 3)] =
      some twoRegions.summary ∧
    (twoRegions.merge twoRegions).summary.overall.total = 26 + 26 := by
  have hfits : twoRegions.Fits := ⟨by decide, by decide, by decide⟩
  have hregions : twoRegions.summary.regions.average = 7 := by decide
  have hcells : twoRegions.summary.cells.average = 4 := by decide
  obtain ⟨hsummary, hmerge⟩ := summary_partitions_counts
  obtain ⟨-, -, -, -, -, -, hbetween, -, -, hpass⟩ := hsummary twoRegions
  obtain ⟨-, -, -, -, -, -, -, -, hempty, -⟩ := hsummary (empty.recordMany "s" 3)
  obtain ⟨hlo, hhi⟩ := hbetween (by decide) (by decide)
  rw [hregions, hcells] at hlo hhi
  exact ⟨⟨hregions, hcells, hlo, hhi⟩, hempty (by decide), hpass hfits _ (by decide),
    (hmerge twoRegions twoRegions).1.trans (by decide)⟩

end Tally

end GeoPartition
