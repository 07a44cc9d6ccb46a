import GeoPartition.Bucket.Quadrant

/-!
# Regions

A box that no cell of the first level holds is filed under a region: a quadrant, the half of the
globe that two neighbouring quadrants make, all four quadrants, or the whole globe.
-/

namespace GeoPartition

inductive Region
  | global
  | all
  | north
  | south
  | east
  | west
  | quadrant (q : Quadrant)
deriving DecidableEq

namespace Region

def name : Region → String
  | global => "Global"
  | all => "All"
  | north => "North"
  | south => "South"
  | east => "East"
  | west => "West"
  | quadrant q => q.label

/-- Every region; their names are the names of `names`. -/
def values : List Region :=
  [global, all, north, south, east, west] ++ Quadrant.all.map quadrant

def names : List String := values.map name

def ofName? (s : String) : Option Region := values.find? (·.name = s)

theorem mem_values (r : Region) : r ∈ values := by
  cases r with
  | quadrant q => cases q <;> decide
  | _ => decide

end Region

end GeoPartition
