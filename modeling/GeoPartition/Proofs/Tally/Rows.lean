import GeoPartition.Proofs.Ingest.Keys
import GeoPartition.Proofs.Tally.Monoid
import GeoPartition.Proofs.Text.Bytes
import GeoPartition.Proofs.Text.Grouped
import GeoPartition.Tally.Text

/-!
# The text report is read back

**Theorem (`report_faithful`).** Tallies have the same text report exactly if they have the same
counts and skipped as many features, as long as no name has a line end in it or a blank at its end.
The report is one row for each name, in the order of the bytes of the names, with the rows of the
summary behind them.

* *Rows*: a row is read from its end. The count goes back to the last blank, and the blanks in front
  of it to a colon, so neither a colon in the label nor a label or a count that is too long for its
  column leads astray (`labelOf_cells`, `countOf_cells`).
* *Lines*: no row has a line end in it, so the rows are the lines of the report (`splitOn_report`).
* *Tallies*: what stands behind the names has six rows, or seven of which the last is called `Skip`;
  so the last row says where the names end (`eq_of_reportRows_eq`).
-/

namespace GeoPartition.Tally

/-- Can a text be the label of a row? It has no line end in it and no blank at its end. -/
def IsLabel (label : List Char) : Prop := '\n' ∉ label ∧ label.getLast? ≠ some ' '

/-! ## Rows -/

/-- A row without its line end. -/
def cells (label : List Char) (count : ℕ) : List Char :=
  label ++ List.replicate (6 - label.length) ' ' ++ [':', ' '] ++
    List.replicate (10 - (Text.grouped count).length) ' ' ++ Text.grouped count

theorem row_eq (label : List Char) (count : ℕ) :
    row label count = cells label count ++ ['\n'] := rfl

/-- The count at the end of a row. -/
def countOf (row : List Char) : List Char := row.rtakeWhile Text.isCountChar

/-- The label at the front of a row: what is left of it without its count, the blanks in front of
the count, the colon and the blanks in front of the colon. -/
def labelOf (row : List Char) : List Char :=
  (((row.rdropWhile Text.isCountChar).rdropWhile (· = ' ')).dropLast).rdropWhile (· = ' ')

section

variable {p : Char → Bool} {s t : List Char} (ht : ∀ c ∈ t, p c)
  (hs : ∀ c ∈ s.getLast?, p c = false)

include ht hs

/-- What is dropped from the end of a text goes back to the last character outside of a class. -/
theorem rdropWhile_append : (s ++ t).rdropWhile p = s := by
  have hstop : s.reverse.dropWhile p = s.reverse := by
    rw [← List.head?_reverse] at hs
    cases h : s.reverse with
    | nil => rfl
    | cons c rest =>
      rw [h] at hs
      exact List.dropWhile_cons_of_neg (by simp [hs c rfl])
  rw [List.rdropWhile, List.reverse_append, List.dropWhile_append_of_pos (by simpa using ht), hstop,
    List.reverse_reverse]

theorem rtakeWhile_append : (s ++ t).rtakeWhile p = t := by
  have hsplit := List.rdropWhile_append_rtakeWhile (p := p) (l := s ++ t)
  rw [rdropWhile_append ht hs] at hsplit
  exact List.append_cancel_left hsplit

end

/-- The blank behind the colon is one of those in front of the count. -/
theorem colon_blanks (s : List Char) (n : ℕ) :
    s ++ [':', ' '] ++ List.replicate n ' ' = s ++ [':'] ++ List.replicate (n + 1) ' ' := by
  simp [List.replicate_succ]

theorem getLast?_blanks (s : List Char) (n : ℕ) :
    (s ++ [':', ' '] ++ List.replicate n ' ').getLast? = some ' ' := by
  rw [colon_blanks, List.replicate_succ', ← List.append_assoc, List.getLast?_concat]

/-- The count of a row is what its row ends with. -/
theorem countOf_cells (label : List Char) (count : ℕ) :
    countOf (cells label count) = Text.grouped count := by
  refine rtakeWhile_append (fun _ => Text.isCountChar_of_mem_grouped) ?_
  rw [getLast?_blanks]
  intro c hc
  cases hc
  rfl

/-- **The label of a row is read back**, if it does not end with a blank. -/
theorem labelOf_cells {label : List Char} (h : IsLabel label) (count : ℕ) :
    labelOf (cells label count) = label := by
  have hcount : (cells label count).rdropWhile Text.isCountChar =
      label ++ List.replicate (6 - label.length) ' ' ++ [':', ' '] ++
        List.replicate (10 - (Text.grouped count).length) ' ' := by
    refine rdropWhile_append (fun _ => Text.isCountChar_of_mem_grouped) ?_
    rw [getLast?_blanks]
    intro c hc
    cases hc
    rfl
  have hblanks : (label ++ List.replicate (6 - label.length) ' ' ++ [':', ' '] ++
      List.replicate (10 - (Text.grouped count).length) ' ').rdropWhile (· = ' ') =
        label ++ List.replicate (6 - label.length) ' ' ++ [':'] := by
    rw [colon_blanks]
    exact rdropWhile_append (by simp) (by simp)
  rw [labelOf, hcount, hblanks, List.dropLast_concat]
  refine rdropWhile_append (by simp) ?_
  intro c hc
  simp only [decide_eq_false_iff_not]
  rintro rfl
  exact h.2 hc

theorem newline_notMem_cells {label : List Char} (h : IsLabel label) (count : ℕ) :
    '\n' ∉ cells label count := by
  have hcount : '\n' ∉ Text.grouped count := fun hmem =>
    absurd (Text.isCountChar_of_mem_grouped hmem) (by decide)
  simp [cells, h.1, hcount]

/-! ## Lines -/

/-- The rows of a text are its lines, and nothing stands behind the last one. -/
theorem splitOn_rows {rows : List (String × ℕ)} (h : ∀ r ∈ rows, IsLabel r.1.toList) :
    (rows.flatMap fun r => row r.1.toList r.2).splitOn '\n' =
      (rows.map fun r => cells r.1.toList r.2) ++ [[]] := by
  induction rows with
  | nil => rfl
  | cons r rows ih =>
    obtain ⟨hr, hrows⟩ := List.forall_mem_cons.1 h
    have hline : (cells r.1.toList r.2).splitOn '\n' = [cells r.1.toList r.2] :=
      List.splitOn_eq_singleton (newline_notMem_cells hr r.2)
    have hrest := ih hrows
    rw [List.flatMap_cons, row_eq, List.append_assoc, List.singleton_append]
    unfold List.splitOn at hline hrest ⊢
    rw [List.splitOnP_append_cons _ _ (by simp), hline, hrest]
    rfl

variable {t u : Tally}

theorem isLabel_summaryRows (s : Summary) : ∀ r ∈ summaryRows s, IsLabel r.1.toList := by
  have hsix : ∀ label ∈ ["Sum", "Avg", "BigSum", "BigBox", "BktSum", "Bucket", "Skip"],
      IsLabel label.toList := by
    unfold IsLabel
    decide
  intro r hr
  apply hsix
  unfold summaryRows at hr
  split_ifs at hr <;> simp at hr ⊢ <;> grind

theorem isLabel_reportRows (ht : ∀ name ∈ t.counts.names, IsLabel name.toList) :
    ∀ r ∈ t.reportRows, IsLabel r.1.toList := by
  intro r hr
  rcases List.mem_append.1 hr with hr | hr
  · exact ht r.1 (List.mem_map_of_mem hr)
  · exact isLabel_summaryRows _ r hr

/-- **The lines of a report** are its rows. -/
theorem splitOn_report (ht : ∀ name ∈ t.counts.names, IsLabel name.toList) :
    t.report.toList.splitOn '\n' = (t.reportRows.map fun r => cells r.1.toList r.2) ++ [[]] := by
  rw [report, String.toList_ofList]
  exact splitOn_rows (isLabel_reportRows ht)

/-! ## Tallies -/

theorem summary_skipped (t : Tally) : t.summary.skipped = t.skipped := rfl

/-- The last row tells whether features were skipped, and how many. -/
theorem getLast?_reportRows (t : Tally) :
    t.reportRows.getLast? =
      if 0 < t.skipped then some ("Skip", t.skipped)
      else some ("Bucket", t.summary.cells.average) := by
  unfold reportRows summaryRows
  rw [summary_skipped]
  split_ifs <;> simp [List.getLast?_append]

theorem length_summaryRows (t : Tally) :
    (summaryRows t.summary).length = if 0 < t.skipped then 7 else 6 := by
  unfold summaryRows
  rw [summary_skipped]
  split_ifs <;> rfl

/-- **The rows of a report are those of one tally.** -/
theorem eq_of_reportRows_eq (h : t.reportRows = u.reportRows) :
    t.counts.toList = u.counts.toList ∧ t.skipped = u.skipped := by
  have hskipped : t.skipped = u.skipped := by
    have hlast := congrArg List.getLast? h
    rw [getLast?_reportRows, getLast?_reportRows] at hlast
    split_ifs at hlast with ht hu hu
    · simpa using hlast
    · simp at hlast
    · simp at hlast
    · omega
  have hlength : (summaryRows t.summary).length = (summaryRows u.summary).length := by
    rw [length_summaryRows, length_summaryRows, hskipped]
  exact ⟨(List.append_inj' h hlength).1, hskipped⟩

/-- The label and the count of each row are read back. -/
theorem map_read_cells {rows : List (String × ℕ)} (h : ∀ r ∈ rows, IsLabel r.1.toList) :
    (rows.map fun r => cells r.1.toList r.2).map (fun line => (labelOf line, countOf line)) =
      rows.map fun r => (r.1.toList, Text.grouped r.2) := by
  rw [List.map_map]
  refine List.map_congr_left fun r hr => ?_
  simp [labelOf_cells (h r hr), countOf_cells]

/-- **Reports differ if tallies do.** -/
theorem report_eq_iff (ht : ∀ name ∈ t.counts.names, IsLabel name.toList)
    (hu : ∀ name ∈ u.counts.names, IsLabel name.toList) :
    t.report = u.report ↔ t.counts.toList = u.counts.toList ∧ t.skipped = u.skipped := by
  constructor
  · intro h
    have hlines := congrArg (List.splitOn '\n') (congrArg String.toList h)
    rw [splitOn_report ht, splitOn_report hu] at hlines
    have hread := congrArg (List.map fun line => (labelOf line, countOf line))
      (List.append_cancel_right hlines)
    rw [map_read_cells (isLabel_reportRows ht), map_read_cells (isLabel_reportRows hu)] at hread
    have hinj : Function.Injective fun r : String × ℕ => (r.1.toList, Text.grouped r.2) := by
      rintro ⟨label, n⟩ ⟨label', n'⟩ heq
      obtain ⟨hlabel, hn⟩ := Prod.mk.inj heq
      exact Prod.ext (String.toList_inj.1 hlabel) (Text.grouped_injective hn)
    exact eq_of_reportRows_eq (hinj.list_map hread)
  · rintro ⟨hcounts, hskipped⟩
    obtain ⟨⟨counts, hsorted⟩, skipped⟩ := t
    obtain ⟨⟨counts', hsorted'⟩, skipped'⟩ := u
    cases hcounts
    cases hskipped
    rfl

/-! ## Names -/

theorem pairwise_bytes_names (c : Counts) :
    c.names.Pairwise fun name next => Text.bytes name < Text.bytes next :=
  List.pairwise_map.2 (c.sorted.imp fun h => Text.bytes_lt_bytes h)

/-- The entries of a tally are its names with their counts. -/
theorem toList_eq_map_names (t : Tally) :
    t.counts.toList = t.counts.names.map fun name => (name, t.count name) := by
  rw [Counts.names, List.map_map]
  refine (List.map_id _).symm.trans (List.map_congr_left fun e he => ?_)
  have hcount : t.count e.1 = e.2 := by
    rw [count, Counts.get, t.counts.sorted.mem_iff.1 he]
    rfl
  simp [hcount]

theorem mem_intersperse {c sep : Char} {s : List Char} (h : c ∈ s.intersperse sep) :
    c = sep ∨ c ∈ s := by
  induction s with
  | nil => exact .inr h
  | cons a s ih =>
    cases s with
    | nil => exact .inr h
    | cons b s =>
      rw [List.intersperse_cons_cons, List.mem_cons, List.mem_cons] at h
      rcases h with rfl | rfl | h
      · exact .inr List.mem_cons_self
      · exact .inl rfl
      · exact (ih h).imp_right (List.mem_cons_of_mem a)

/-- Neither the names of regions nor the paths of cells have blanks or line ends in them. -/
theorem ne_blank_of_isKey {n : ℕ} {name : String} (h : Bucket.IsKey n name) :
    ∀ c ∈ name.toList, c ≠ '\n' ∧ c ≠ ' ' := by
  intro c hc
  rcases h with hname | ⟨s, -, -, hs, rfl⟩
  · obtain ⟨r, -, rfl⟩ := List.mem_map.1 hname
    have hall : r.name.toList.all (fun c => c ≠ '\n' ∧ c ≠ ' ') = true := by
      cases r with
      | quadrant q => cases q <;> decide
      | _ => decide
    exact of_decide_eq_true (List.all_eq_true.1 hall c hc)
  · have hall : (Bucket.separator :: Geohash.alphabet).all
        (fun c => c ≠ '\n' ∧ c ≠ ' ') = true := by
      decide
    rw [String.toList_ofList] at hc
    refine of_decide_eq_true (List.all_eq_true.1 hall c ?_)
    rcases mem_intersperse hc with rfl | hc
    · exact List.mem_cons_self
    · exact List.mem_cons_of_mem _ (hs c hc)

theorem isLabel_of_isKey {n : ℕ} {name : String} (h : Bucket.IsKey n name) :
    IsLabel name.toList := by
  have hne := ne_blank_of_isKey h
  exact ⟨fun hmem => (hne _ hmem).1 rfl, fun hlast => (hne _ (List.mem_of_getLast? hlast)).2 rfl⟩

/-- **Names of buckets are labels.** -/
theorem isLabel_of_isAnswer {fs : List GeoJson.Feature} {p : Partitioner} {s : Settings} {t : Tally}
    (h : Ingest.IsAnswer fs p s (.ok t)) : ∀ name ∈ t.counts.names, IsLabel name.toList := by
  obtain ⟨-, rfl⟩ := Ingest.features_eq_ok_iff.1 (Ingest.isAnswer_ok_iff.1 h)
  intro name hname
  obtain ⟨e, he, rfl⟩ := List.mem_map.1 hname
  obtain ⟨f, -, b, hb, hpath⟩ := Ingest.exists_bucket_of_mem_tallyOf he
  obtain ⟨r, hr⟩ := Ingest.exists_bucketOfRect_of_bucket hb
  exact hpath ▸ isLabel_of_isKey (Partitioner.bucketOfRect_isKey hr)

/-! ## The report -/

/-- **The text report loses nothing.** If no name has a line end in it or a blank at its end,
tallies with the same report have the same counts and skipped as many features. The lines of a
report are a row for each name, in the order of the bytes of the names, six rows for the summary,
and one for the features skipped if there are any. No run over features leaves any other names
behind. -/
theorem report_faithful (ht : ∀ name ∈ t.counts.names, IsLabel name.toList)
    (hu : ∀ name ∈ u.counts.names, IsLabel name.toList) :
    (t.report = u.report ↔ t.counts.toList = u.counts.toList ∧ t.skipped = u.skipped) ∧
    t.report.toList.splitOn '\n' =
      (t.counts.names.map fun name => cells name.toList (t.count name)) ++
      [cells "Sum".toList t.summary.overall.total, cells "Avg".toList t.summary.overall.average,
        cells "BigSum".toList t.summary.regions.total,
        cells "BigBox".toList t.summary.regions.average,
        cells "BktSum".toList t.summary.cells.total,
        cells "Bucket".toList t.summary.cells.average] ++
      (if 0 < t.skipped then [cells "Skip".toList t.skipped] else []) ++ [[]] ∧
    t.counts.names.Pairwise (fun name next => Text.bytes name < Text.bytes next) ∧
    ∀ fs p s v, Ingest.IsAnswer fs p s (.ok v) → ∀ name ∈ v.counts.names, IsLabel name.toList := by
  refine ⟨report_eq_iff ht hu, ?_, pairwise_bytes_names t.counts,
    fun _ _ _ _ => isLabel_of_isAnswer⟩
  rw [splitOn_report ht, reportRows, summaryRows, summary_skipped, toList_eq_map_names]
  split_ifs <;> simp

/-- A tally whose names look like rows of the summary, are too long for their column or empty. -/
def oddNames : Tally :=
  ((((empty.recordMany "Skip" 1234567).record "").recordMany "Sum :         12" 98765432101).record
    "Ω/long").recordSkipped

/-- One with a bucket called `Skip` and no features skipped. -/
def skipNamed : Tally := { oddNames with skipped := 0 }

theorem report_faithful_oddNames :
    oddNames.report ≠ skipNamed.report ∧
    oddNames.report.toList.splitOn '\n' = ([
      "      :          1", "Skip  :  1,234,567", "Sum :         12: 98,765,432,101",
      "Ω/long:          1", "Sum   : 98,766,666,670", "Avg   : 24,691,666,667",
      "BigSum:          0", "BigBox:          0", "BktSum: 98,766,666,670",
      "Bucket: 24,691,666,667", "Skip  :          1", ""].map String.toList) := by
  have hlabels : ∀ name ∈ oddNames.counts.names, IsLabel name.toList := by
    unfold IsLabel
    decide
  obtain ⟨hreport, hlines, -, -⟩ := report_faithful hlabels (u := skipNamed) hlabels
  refine ⟨fun h => absurd (hreport.1 h).2 (by decide), hlines.trans ?_⟩
  decide

end GeoPartition.Tally
