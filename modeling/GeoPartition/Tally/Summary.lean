import GeoPartition.Tally.Basic

/-!
# Summaries

The totals of a tally over all its buckets, over those named like a region, and over the others,
which are cells.

Dividing by zero has no result here, so the mean of a group without buckets is not a quotient: that
there is always a mean (`isSome_mean?`) rests on the check that is made first.
-/

namespace GeoPartition

/-- A group of buckets: the sum of their counts, their number, and the mean rounded down. -/
structure Summary.Group where
  total : Nat
  buckets : Nat
  average : Nat
deriving DecidableEq, Inhabited

structure Summary where
  overall : Summary.Group
  regions : Summary.Group
  cells : Summary.Group
  skipped : Nat
deriving DecidableEq, Inhabited

namespace Summary

def sumOf (counts : List Nat) : Nat := counts.foldr (· + ·) 0

/-- The quotient rounded down; nothing if the divisor is zero. -/
def divide? (n d : Nat) : Option Nat := if d = 0 then none else some (n / d)

/-- The mean of some counts by their total and their number; that of none is zero. -/
def mean? (total count : Nat) : Option Nat := if count = 0 then some 0 else divide? total count

theorem isSome_mean? (total count : Nat) : (mean? total count).isSome := by
  unfold mean? divide?
  split <;> rfl

def mean (total count : Nat) : Nat := (mean? total count).get (isSome_mean? total count)

/-- The group of buckets with these counts. -/
def Group.ofCounts (counts : List Nat) : Group where
  total := sumOf counts
  buckets := counts.length
  average := mean (sumOf counts) counts.length

/-- Is a bucket named like a region? -/
def isRegionName (name : String) : Bool := (Region.ofName? name).isSome

end Summary

/-- The totals of a tally. -/
def Tally.summary (t : Tally) : Summary :=
  let (regions, cells) := t.counts.toList.partition fun e => Summary.isRegionName e.1
  { overall := .ofCounts (t.counts.toList.map (·.2))
    regions := .ofCounts (regions.map (·.2))
    cells := .ofCounts (cells.map (·.2))
    skipped := t.skipped }

end GeoPartition
