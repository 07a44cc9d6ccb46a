import GeoPartition.Geohash.Alphabet
import GeoPartition.Geo.Coordinate
import GeoPartition.Binary64.Arithmetic

/-!
# Geohash codes

**Words.** Each axis is scaled to the interval from 1 to 2, where the fraction of a binary64 number
counts evenly; its upper 32 bits are the word of the axis.

**Interleaving.** The bits of the two words alternate, a bit of the longitude first.

**Codes.** Each five bits, from the top, are one symbol.
-/

namespace GeoPartition

/-- A code: a sequence of symbols. -/
abbrev Code := List Char

namespace Geohash

/-- One over the width of an axis in degrees, to sixteen digits. -/
def scale : Axis → Binary64
  | .longitude => .ofDecimal false 2777777777777778 (-18)
  | .latitude => .ofDecimal false 5555555555555556 (-18)

/-- The middle of the scaled axis. -/
def middle : Binary64 := .ofDecimal false 15 (-1)

/-- Degrees scaled to the interval from 1 to 2. -/
def scaled (axis : Axis) (degrees : Binary64) : Binary64 := (degrees.mul (scale axis)).add middle

/-- The upper 32 bits of the fraction of the scaled degrees. -/
def word (axis : Axis) (degrees : Binary64) : Nat :=
  ((scaled axis degrees).bits >>> 20) % (1 <<< 32)

/-- The low `n` bits of `a` and `b` in turn, those of `a` first. -/
def interleave : Nat → Nat → Nat → Nat
  | 0, _, _ => 0
  | n + 1, a, b => 4 * interleave n (a / 2) (b / 2) + 2 * (a % 2) + b % 2

/-- The 64 bits of which a code shows the first. -/
def position (c : Coordinate) : Nat :=
  interleave 32 (word .longitude c.lon) (word .latitude c.lat)

/-- The first `n` symbols for 64 bits, for `n` up to twelve. -/
def symbols (n bits : Nat) : Code :=
  (List.range n).map fun i => symbol (bits >>> (59 - 5 * i))

/-- The code of a coordinate with `n` symbols. -/
def code (n : Nat) (c : Coordinate) : Code := symbols n (position c)

theorem length_code (n : Nat) (c : Coordinate) : (code n c).length = n := by
  simp [code, symbols]

theorem mem_alphabet_of_mem_code {n : Nat} {c : Coordinate} {s : Char} (h : s ∈ code n c) :
    s ∈ alphabet := by
  simp only [code, symbols, List.mem_map] at h
  obtain ⟨i, _, rfl⟩ := h
  exact symbol_mem _

end Geohash

end GeoPartition
