import GeoPartition.Proofs.Json.Record
import GeoPartition.Proofs.Tally.Summary
import GeoPartition.Tally.Json

/-!
# Reports through JSON

**Theorem (`ofJson_toReport`).** The report of a tally is read back from what is written, whatever
its buckets are called, as long as its sums have 64 bits. So tallies with the same report are equal.

The counts are written in the order of their names, so each is put behind those read before it
(`foldlM_readCount`). The summary is read field by field (`readDraft_draft`). None of its numbers is
greater than the total or the number of buckets, apart from the number of features skipped.
-/

namespace GeoPartition

open Json (Draft Lexeme Spells)

/-! ## Numbers of 64 bits -/

namespace Summary

/-- The numbers of some of the buckets are bounded by the sum and the number of all. -/
theorem Group.get_ofCounts_lt {l m : List ℕ} {bound : ℕ} (hsub : l.Sublist m)
    (hsum : sumOf m < bound) (hlength : m.length < bound) (x : Measure) :
    (Group.ofCounts l).get x < bound := by
  have hl : sumOf l < bound := (hsub.sum_le_sum fun _ _ => Nat.zero_le _).trans_lt hsum
  cases x with
  | total => exact hl
  | buckets => exact hsub.length_le.trans_lt hlength
  | average => exact (mean_le _ _).trans_lt hl

end Summary

namespace Tally.Fits

variable {t : Tally} (h : t.Fits)

include h

theorem get_lt (f : Summary.Field) : t.summary.get f < UInt64.size := by
  have hsum : Summary.sumOf (t.counts.toList.map (·.2)) < UInt64.size := h.total
  have hlength : (t.counts.toList.map (·.2)).length < UInt64.size :=
    (List.length_map _).trans_lt h.buckets
  cases f with
  | overall x => exact Summary.Group.get_ofCounts_lt (List.Sublist.refl _) hsum hlength x
  | regions x =>
    simp only [Summary.get, summary, List.partition_eq_filter_filter]
    exact Summary.Group.get_ofCounts_lt (List.filter_sublist.map _) hsum hlength x
  | cells x =>
    simp only [Summary.get, summary, List.partition_eq_filter_filter]
    exact Summary.Group.get_ofCounts_lt (List.filter_sublist.map _) hsum hlength x
  | skipped => exact h.skipped

theorem count_lt {e : String × ℕ} (he : e ∈ t.counts.toList) : e.2 < UInt64.size :=
  (List.le_sum_of_mem (List.mem_map_of_mem he)).trans_lt h.total

end Tally.Fits

/-! ## The summary -/

namespace Summary

/-- The summary as it is read. -/
def draft (s : Summary) : Draft :=
  .object (Field.all.map fun f => (.spelling f.key.toList, .number (.ofNat (s.get f)))) (.ok ())

theorem spells_toValue (s : Summary) (level : ℕ) : Spells (s.toValue.pretty level) s.draft :=
  Json.spells_object Field.key (fun f => .number (.natural (s.get f)))
    (fun f => .number (.ofNat (s.get f))) Field.all level fun f _ =>
      Json.spells_natural (s.get f) (level + 1)

theorem Field.nodup_all : Field.all.Nodup := by
  decide

theorem Field.mem_all (f : Field) : f ∈ all := by
  rcases f with x | x | x | _
  · cases x <;> decide
  · cases x <;> decide
  · cases x <;> decide
  · decide

theorem field?_key (f : Field) : record.field? f.key.toList = some f := by
  rcases f with x | x | x | _
  · cases x <;> decide
  · cases x <;> decide
  · cases x <;> decide
  · decide

theorem foldl_set (s t : Summary) : Field.all.foldl (fun t f => t.set f (s.get f)) t = s := by
  simp only [Field.all, Measure.all, List.map_cons, List.map_nil, List.cons_append, List.nil_append,
    List.foldl_cons, List.foldl_nil, set, get, Group.set, Group.get]

theorem read_ofNat {n : ℕ} (h : n < UInt64.size) (f : Field) (s : Summary) :
    record.read f (.number (.ofNat n)) s = .ok (s.set f n) := by
  simp [record, Json.natural_ofNat h, Functor.map, Except.map]

/-- **Summaries are read field by field.** -/
theorem readDraft_draft {s : Summary} (h : ∀ f, s.get f < UInt64.size) (start : Summary) :
    record.readDraft start s.draft = .ok s :=
  (Json.Record.readDraft_object Field.nodup_all (fun f _ => field?_key f)
    (fun f _ => read_ofNat (h f) f) (fun _ f _ => f.mem_all) start).trans
    (congrArg Except.ok (foldl_set s start))

end Summary

/-! ## The counts -/

namespace Report

theorem putCount_toList {c : Counts} {name : String} (h : ∀ e ∈ c.toList, e.1 < name) (n : ℕ) :
    (putCount c name n).toList = c.toList ++ [(name, n)] :=
  Keyed.insertWith_of_forall_lt _ n h

theorem readCount_eq {n : ℕ} (h : n < UInt64.size) (c : Counts) (name : String) :
    readCount c (.spelling name.toList, .number (.ofNat n)) = .ok (putCount c name n) := by
  simp [readCount, Json.text_spelling, Json.orFlaw, Except.mapError, Json.natural_ofNat h, bind,
    Except.bind, pure, Except.pure]

/-- **Counts are read one by one**, each behind those that were read before it. -/
theorem foldlM_readCount {l : List (String × ℕ)} (hbound : ∀ e ∈ l, e.2 < UInt64.size) {c d : Counts}
    (h : d.toList = c.toList ++ l) :
    (l.map fun e => (Lexeme.spelling e.1.toList, Draft.number (.ofNat e.2))).foldlM readCount c =
      .ok d := by
  induction l generalizing c with
  | nil =>
    rw [List.append_nil] at h
    cases c
    cases d
    cases h
    rfl
  | cons e l ih =>
    obtain ⟨hn, hbound⟩ := List.forall_mem_cons.1 hbound
    have hbehind : ∀ x ∈ c.toList, x.1 < e.1 := fun x hx =>
      (List.pairwise_append.1 (h ▸ d.sorted)).2.2 x hx e List.mem_cons_self
    rw [List.map_cons, List.foldlM_cons, readCount_eq hn]
    exact ih hbound (by rw [putCount_toList hbehind, List.append_assoc]; exact h)

/-- The counts as they are read. -/
def countsDraft (c : Counts) : Draft :=
  .object (c.toList.map fun e => (.spelling e.1.toList, .number (.ofNat e.2))) (.ok ())

theorem readCounts_countsDraft {c : Counts} (h : ∀ e ∈ c.toList, e.2 < UInt64.size) :
    readCounts (countsDraft c) = .ok c := by
  simp only [readCounts, countsDraft]
  rw [foldlM_readCount h (List.nil_append _).symm]
  rfl

theorem spells_counts (c : Counts) (level : ℕ) :
    Spells ((Json.Value.object (c.toList.map fun e => (e.1, .number (.natural e.2)))).pretty level)
      (countsDraft c) :=
  Json.spells_object (·.1) (fun e => .number (.natural e.2)) (fun e => .number (.ofNat e.2)) c.toList
    level fun e _ => Json.spells_natural e.2 (level + 1)

/-! ## The report -/

variable (r : Report)

/-- The value of each part of the report, as it is written. -/
def fieldValue : Field → Json.Value
  | .buckets => .object (r.buckets.toList.map fun e => (e.1, .number (.natural e.2)))
  | .summary => r.summary.toValue

/-- The value of each part of the report, as it is read. -/
def fieldDraft : Field → Draft
  | .buckets => countsDraft r.buckets
  | .summary => r.summary.draft

/-- Puts one part of `r` into `t`. -/
def putField : Field → Report → Report
  | .buckets, t => { t with buckets := r.buckets }
  | .summary, t => { t with summary := r.summary }

theorem toValue_eq :
    r.toValue = .object ([Field.buckets, Field.summary].map fun f => (f.key, r.fieldValue f)) := rfl

theorem spells_fieldValue (f : Field) (level : ℕ) :
    Spells ((r.fieldValue f).pretty level) (r.fieldDraft f) := by
  cases f with
  | buckets => exact spells_counts r.buckets level
  | summary => exact r.summary.spells_toValue level

theorem field?_key (f : Field) : record.field? f.key.toList = some f := by
  cases f <;> decide

variable {r}

theorem readField_fieldDraft (hcounts : ∀ e ∈ r.buckets.toList, e.2 < UInt64.size)
    (hsummary : ∀ f, r.summary.get f < UInt64.size) (f : Field) (t : Report) :
    readField f (r.fieldDraft f) t = .ok (r.putField f t) := by
  cases f with
  | buckets => simp only [readField, fieldDraft, readCounts_countsDraft hcounts]; rfl
  | summary => simp only [readField, fieldDraft, Summary.readDraft_draft hsummary]; rfl

/-- **What is written is read**, if its numbers have 64 bits. -/
theorem ofJson_toJson_of_lt (hcounts : ∀ e ∈ r.buckets.toList, e.2 < UInt64.size)
    (hsummary : ∀ f, r.summary.get f < UInt64.size) : ofJson r.toJson = .ok r := by
  rw [ofJson, toJson, String.toList_ofList, toValue_eq, Json.Record.readText_of_spells
    (Json.spells_object Field.key r.fieldValue r.fieldDraft _ 0 fun f _ => r.spells_fieldValue f 1)]
  exact Json.Record.readDraft_object (r := record) (by decide) (fun f _ => field?_key f)
    (fun f _ => readField_fieldDraft hcounts hsummary f) (fun _ _ hf => hf) _

end Report

namespace Tally

/-- **Reports through JSON.** The counts and the ten numbers of a tally are read back from its
report, whatever its buckets are called, and tallies that differ have different reports. -/
theorem ofJson_toReport {t : Tally} (ht : t.Fits) :
    Report.ofJson t.toReport.toJson = .ok t.toReport ∧
      ∀ u : Tally, u.Fits → u.toReport.toJson = t.toReport.toJson → u = t := by
  have hread {u : Tally} (hu : u.Fits) : Report.ofJson u.toReport.toJson = .ok u.toReport :=
    Report.ofJson_toJson_of_lt (fun _ => hu.count_lt) hu.get_lt
  refine ⟨hread ht, fun u hu hjson => ?_⟩
  have hreport : u.toReport = t.toReport := by
    have hok := hread hu
    rw [hjson, hread ht] at hok
    exact (Except.ok.inj hok).symm
  -- The counts are a part of the report, and the skipped features are a number of its summary.
  obtain ⟨counts, skipped⟩ := t
  obtain ⟨counts', skipped'⟩ := u
  obtain rfl : counts' = counts := congrArg Report.buckets hreport
  obtain rfl : skipped' = skipped := congrArg (·.summary.skipped) hreport
  rfl

/-- Buckets with names of every kind, and as many features as can be counted but one. -/
def manyFeatures : Tally :=
  (((empty.recordMany "" 3).recordMany "\"\\/\x01\n😀" 18446744073709551610).record "NW").recordSkipped

theorem ofJson_toReport_manyFeatures :
    Report.ofJson manyFeatures.toReport.toJson = .ok manyFeatures.toReport ∧
      (manyFeatures.record "").toReport.toJson ≠ manyFeatures.toReport.toJson := by
  have hfits : manyFeatures.Fits := ⟨by decide, by decide, by decide⟩
  have hfits' : (manyFeatures.record "").Fits := ⟨by decide, by decide, by decide⟩
  obtain ⟨hread, hinj⟩ := ofJson_toReport hfits
  refine ⟨hread, fun h => ?_⟩
  exact absurd (hinj _ hfits' h) (by decide)

end Tally

end GeoPartition
