import GeoPartition.Proofs.Geohash.Code
import GeoPartition.Bucket.Cover

/-!
# Quadrants and the leading bits of a code

The first symbol of a code begins with the leading bits of the two words, and these tell the half of
the globe on each axis. So the table of quadrants can be read off the words, and the order of two
corners on each axis decides which pairs of quadrants can meet.

**Regions (`mem_quadrants_regionOfQuadrants`).** The region over the quadrants of two corners in
order names the quadrant of everything between them.
-/

namespace GeoPartition

namespace Quadrant

/-- The quadrant on a side of the prime meridian and a side of the equator. -/
def ofHalves : (east north : Bool) → Quadrant
  | true, true => northEast
  | false, true => northWest
  | true, false => southEast
  | false, false => southWest

set_option maxRecDepth 2000 in
/-- The table of quadrants is read off the two leading bits of a symbol. -/
theorem ofSymbol?_symbol (n : ℕ) :
    ofSymbol? (Geohash.symbol n) = some (ofHalves (n.testBit 4) (n.testBit 3)) := by
  have htable : ∀ m < 32,
      ofSymbol? (Geohash.symbol m) = some (ofHalves (m.testBit 4) (m.testBit 3)) := by
    decide
  have hn : Geohash.symbol n = Geohash.symbol (n % 2 ^ 5) :=
    Geohash.symbol_eq_iff.2 (Nat.mod_mod n 32).symm
  rw [hn, htable (n % 2 ^ 5) (Nat.mod_lt n (by decide)), Nat.testBit_mod_two_pow,
    Nat.testBit_mod_two_pow]
  simp

end Quadrant

/-! ## The quadrants of a region -/

/-- The quadrants that a region names. -/
def Region.quadrants : Region → List Quadrant
  | global | all => Quadrant.all
  | north => [.northEast, .northWest]
  | south => [.southEast, .southWest]
  | east => [.northEast, .southEast]
  | west => [.northWest, .southWest]
  | quadrant q => [q]

namespace Cover

open Quadrant (ofHalves)

theorem mem_quadrants_regionOfQuadrants {e₁ e e₂ n₁ n n₂ : Bool} (he₁ : e₁ → e) (he₂ : e → e₂)
    (hn₁ : n₁ → n) (hn₂ : n → n₂) :
    ofHalves e n ∈ (regionOfQuadrants (ofHalves e₁ n₁) (some (ofHalves e₂ n₂))).quadrants := by
  revert e₁ e e₂ n₁ n n₂
  decide

/-- A region keeps the quadrant of the bottom left corner only if the other corner lies in it
too. -/
theorem eq_of_regionOfQuadrants_eq_quadrant {e₁ e₂ n₁ n₂ : Bool} (he : e₁ → e₂) (hn : n₁ → n₂)
    (h : regionOfQuadrants (ofHalves e₁ n₁) (some (ofHalves e₂ n₂)) = .quadrant (ofHalves e₁ n₁)) :
    ofHalves e₂ n₂ = ofHalves e₁ n₁ := by
  revert e₁ e₂ n₁ n₂
  decide

end Cover

/-! ## The quadrant of a coordinate -/

namespace Geohash

/-- Does a coordinate lie on the upper half of an axis? -/
def isUpper (axis : Axis) (v : Binary64) : Bool := (word axis v).testBit 31

/-- The quadrant of a coordinate, by the halves of its axes. -/
def quadrant (c : Coordinate) : Quadrant :=
  .ofHalves (isUpper .longitude c.lon) (isUpper .latitude c.lat)

theorem isUpper_mono {axis : Axis} {v w : Binary64} (hv : axis.Encodes v) (hw : axis.Encodes w)
    (h : v.le w = true) : isUpper axis v → isUpper axis w :=
  testBit_last_mono (word_le_word hv hw h) (word_lt axis w)

/-- **The first symbol of a code tells the quadrant.** -/
theorem ofSymbol?_head?_code {n : ℕ} (h : 1 ≤ n) (c : Coordinate) :
    (code n c).head?.bind Quadrant.ofSymbol? = some (quadrant c) := by
  rw [head?_code h, Option.bind_some, Quadrant.ofSymbol?_symbol]
  have hlon : (position c >>> 59).testBit 4 = isUpper .longitude c.lon := by
    rw [Nat.testBit_shiftRight, position, testBit_interleave_odd 32 31]
    rfl
  have hlat : (position c >>> 59).testBit 3 = isUpper .latitude c.lat := by
    rw [Nat.testBit_shiftRight, position, testBit_interleave_even 32 31]
    rfl
  rw [hlon, hlat, quadrant]

end Geohash

end GeoPartition
