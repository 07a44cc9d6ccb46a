import GeoPartition.Tally.Summary
import GeoPartition.Json.Decode
import GeoPartition.Json.Value

/-!
# The JSON report

An object with the counts of all buckets, in the order of their names, and the summary. Both must be
there to be read, with every number of the summary; of a bucket that is named twice the last count
is taken.
-/

namespace GeoPartition

open Json (Draft Value Record Lexeme)

/-! ## The numbers of a summary -/

namespace Summary

/-- The numbers of a group. -/
inductive Measure
  | total
  | buckets
  | average
deriving DecidableEq

/-- The numbers of a summary. -/
inductive Field
  | overall (m : Measure)
  | regions (m : Measure)
  | cells (m : Measure)
  | skipped
deriving DecidableEq

def Measure.all : List Measure := [total, buckets, average]

def Measure.key : Measure → String
  | total => "total"
  | buckets => "buckets"
  | average => "average"

def Group.get (g : Group) : Measure → Nat
  | .total => g.total
  | .buckets => g.buckets
  | .average => g.average

def Group.set (g : Group) : Measure → Nat → Group
  | .total, n => { g with total := n }
  | .buckets, n => { g with buckets := n }
  | .average, n => { g with average := n }

namespace Field

/-- The fields in the order in which they are written. -/
def all : List Field :=
  Measure.all.map overall ++ Measure.all.map regions ++ Measure.all.map cells ++ [skipped]

def key : Field → String
  | overall m => m.key
  | regions m => "macro_" ++ m.key
  | cells m => "cell_" ++ m.key
  | skipped => "skipped"

end Field

def get (s : Summary) : Field → Nat
  | .overall m => s.overall.get m
  | .regions m => s.regions.get m
  | .cells m => s.cells.get m
  | .skipped => s.skipped

def set (s : Summary) : Field → Nat → Summary
  | .overall m, n => { s with overall := s.overall.set m n }
  | .regions m, n => { s with regions := s.regions.set m n }
  | .cells m, n => { s with cells := s.cells.set m n }
  | .skipped, n => { s with skipped := n }

def record : Record Field Summary where
  name := "struct StatsSummary"
  fields := Field.all
  key := Field.key
  required := true
  read f d s := s.set f <$> d.natural "u64"

def toValue (s : Summary) : Value :=
  .object (Field.all.map fun f => (f.key, .number (.natural (s.get f))))

end Summary

/-! ## Reports -/

/-- The counts of a tally with their summary. -/
structure Report where
  buckets : Counts
  summary : Summary
deriving DecidableEq

namespace Report

inductive Field
  | buckets
  | summary
deriving DecidableEq

def Field.key : Field → String
  | buckets => "buckets"
  | summary => "summary"

/-- One more count; it takes the place of an earlier one of the same name. -/
def putCount (c : Counts) (name : String) (n : Nat) : Counts :=
  ⟨Keyed.insertWith (fun _ new => new) name n c.toList, c.sorted.insertWith⟩

def readCount (c : Counts) (member : Lexeme × Draft) : Except Json.Error Counts := do
  let name ← Json.orFlaw member.1.text
  let n ← member.2.natural "u64"
  pure (putCount c (String.ofList name) n)

def readCounts : Draft → Except Json.Error Counts
  | .object members ending => do
    let c ← members.foldlM readCount .empty
    Json.orFlaw ending
    pure c
  | d => .error (d.mismatch "a map")

def readField : Field → Draft → Report → Except Json.Error Report
  | .buckets, d, r => (fun c => { r with buckets := c }) <$> readCounts d
  | .summary, d, r => (fun s => { r with summary := s }) <$> Summary.record.readDraft default d

def record : Record Field Report where
  name := "struct StatsReport"
  fields := [.buckets, .summary]
  key := Field.key
  required := true
  read := readField

/-- The report that a text holds. -/
def ofJson (s : String) : Except Json.Error Report := record.readText ⟨.empty, default⟩ s.toList

def toValue (r : Report) : Value :=
  .object
    [(Field.buckets.key,
      .object (r.buckets.toList.map fun e => (e.1, .number (.natural e.2)))),
     (Field.summary.key, r.summary.toValue)]

/-- The report as text, one number a line. -/
def toJson (r : Report) : String := String.ofList (r.toValue.pretty 0)

end Report

/-- The report of a tally. -/
def Tally.toReport (t : Tally) : Report := ⟨t.counts, t.summary⟩

end GeoPartition
