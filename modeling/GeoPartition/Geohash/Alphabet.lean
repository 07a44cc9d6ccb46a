/-!
# The geohash alphabet

Thirty-two symbols stand for the groups of five bits: the digits, and the small letters without
`a`, `i`, `l` and `o`.
-/

namespace GeoPartition.Geohash

/-- The symbols in the order of their values. -/
def alphabet : List Char := "0123456789bcdefghjkmnpqrstuvwxyz".toList

theorem length_alphabet : alphabet.length = 32 := by decide

/-- The symbol of a group of five bits. -/
def symbol (n : Nat) : Char :=
  alphabet.get ⟨n % 32, by rw [length_alphabet]; exact Nat.mod_lt _ (by decide)⟩

theorem symbol_mem (n : Nat) : symbol n ∈ alphabet := List.get_mem _ _

end GeoPartition.Geohash
