import GeoPartition.Geohash.Alphabet

/-!
# Quadrants

The cells of the first level fall into four quadrants of the globe, eight symbols each.
-/

namespace GeoPartition

inductive Quadrant
  | northEast
  | northWest
  | southEast
  | southWest
deriving DecidableEq

namespace Quadrant

def all : List Quadrant := [northEast, northWest, southEast, southWest]

/-- The symbols of the cells in a quadrant. -/
def symbols : Quadrant → String
  | northEast => "uvyzstwx"
  | northWest => "bcfg89de"
  | southEast => "kmqrhjnp"
  | southWest => "23670145"

def label : Quadrant → String
  | northEast => "NE"
  | northWest => "NW"
  | southEast => "SE"
  | southWest => "SW"

def ofLabel? (s : String) : Option Quadrant := all.find? (·.label = s)

/-- Is the cell with this symbol, in either case, in the quadrant? -/
def contains (q : Quadrant) (symbol : Char) : Bool := q.symbols.toList.contains symbol.toLower

/-- The quadrant of a symbol, in either case. -/
def ofSymbol? (symbol : Char) : Option Quadrant := all.find? (·.contains symbol)

theorem mem_all (q : Quadrant) : q ∈ all := by cases q <;> decide

end Quadrant

end GeoPartition
