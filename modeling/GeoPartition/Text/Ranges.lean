/-!
# Sets of characters given by ranges of code points

A character property is a list of closed ranges of code points. Membership is a search of the
list, so a property needs no invariant beyond its data.
-/

namespace GeoPartition.Text

/-- Closed ranges of code points. -/
abbrev Ranges := List (Nat × Nat)

namespace Ranges

/-- Is `c` in one of the ranges? -/
def contains (t : Ranges) (c : Char) : Bool :=
  t.any fun r => r.1 ≤ c.toNat && c.toNat ≤ r.2

theorem contains_iff {t : Ranges} {c : Char} :
    t.contains c ↔ ∃ r ∈ t, r.1 ≤ c.toNat ∧ c.toNat ≤ r.2 := by
  simp [contains]

end Ranges

end GeoPartition.Text
