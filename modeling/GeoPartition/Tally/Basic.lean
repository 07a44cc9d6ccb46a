import GeoPartition.Keyed
import GeoPartition.Bucket.Region

/-!
# Tallies

A tally counts how often each bucket was recorded, and how often a feature was skipped. Buckets are
named by their paths and kept in the order of their names, so two tallies with the same counts are
equal.
-/

namespace GeoPartition

/-- Counts by name, in the order of the names. -/
structure Counts where
  toList : List (String × Nat)
  sorted : Keyed.Sorted toList
deriving DecidableEq

namespace Counts

def empty : Counts := ⟨[], List.Pairwise.nil⟩

/-- Adds to the count of a name, which need not be present. -/
def add (c : Counts) (name : String) (n : Nat) : Counts :=
  ⟨Keyed.insertWith (· + ·) name n c.toList, c.sorted.insertWith⟩

/-- The count of a name; zero if it is not present. -/
def get (c : Counts) (name : String) : Nat := (c.toList.lookup name).getD 0

/-- The number of names. -/
def size (c : Counts) : Nat := c.toList.length

/-- Adds all counts of `d` to those of `c`. -/
def merge (c d : Counts) : Counts := d.toList.foldl (fun c e => c.add e.1 e.2) c

end Counts

structure Tally where
  counts : Counts
  skipped : Nat
deriving DecidableEq

namespace Tally

def empty : Tally := ⟨.empty, 0⟩

/-- Counts a bucket `n` times. -/
def recordMany (t : Tally) (bucket : String) (n : Nat) : Tally :=
  { t with counts := t.counts.add bucket n }

/-- Counts a bucket once. -/
def record (t : Tally) (bucket : String) : Tally := t.recordMany bucket 1

/-- Counts a feature that has no bucket. -/
def recordSkipped (t : Tally) : Tally := { t with skipped := t.skipped + 1 }

def count (t : Tally) (bucket : String) : Nat := t.counts.get bucket

/-- The counts of two tallies together. -/
def merge (t u : Tally) : Tally := ⟨t.counts.merge u.counts, t.skipped + u.skipped⟩

end Tally

end GeoPartition
