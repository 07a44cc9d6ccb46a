import GeoPartition.Tally.Summary
import GeoPartition.Text.Grouped

/-!
# The text report

One row for each bucket in the order of the names, then the rows of the summary. A row is a label
and a count, each padded to the width of its column; both may run over.
-/

namespace GeoPartition.Tally

/-- One line of the report. -/
def row (label : List Char) (count : Nat) : List Char :=
  let number := Text.grouped count
  label ++ List.replicate (6 - label.length) ' ' ++ [':', ' '] ++
    List.replicate (10 - number.length) ' ' ++ number ++ ['\n']

/-- The labels and counts of the summary; skipped features are shown only if there are any. -/
def summaryRows (s : Summary) : List (String × Nat) :=
  [("Sum", s.overall.total), ("Avg", s.overall.average),
   ("BigSum", s.regions.total), ("BigBox", s.regions.average),
   ("BktSum", s.cells.total), ("Bucket", s.cells.average)] ++
    if 0 < s.skipped then [("Skip", s.skipped)] else []

/-- The labels and counts of the report. -/
def reportRows (t : Tally) : List (String × Nat) := t.counts.toList ++ summaryRows t.summary

/-- The report as text. -/
def report (t : Tally) : String :=
  String.ofList (t.reportRows.flatMap fun r => row r.1.toList r.2)

end GeoPartition.Tally
