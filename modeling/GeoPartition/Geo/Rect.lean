import GeoPartition.Geo.Coordinate

/-!
# Rectangles

A rectangle is an extent on each axis. Extents are built from two ends, or by running through a
list of values. Comparisons with what is not a number fail, so such a value stays where it is put
first and is passed over later.
-/

namespace GeoPartition

/-- The values between two ends of one axis. -/
structure Extent where
  lo : Binary64
  hi : Binary64
deriving DecidableEq

namespace Extent

/-- The extent between two values, the smaller one first. -/
def ofEnds (a b : Binary64) : Extent := if a.lt b then ⟨a, b⟩ else ⟨b, a⟩

/-- Widens an extent to hold one more value. -/
def extend (e : Extent) (v : Binary64) : Extent :=
  if e.hi.lt v then { e with hi := v }
  else if v.lt e.lo then { e with lo := v }
  else e

/-- The extent of a value and those that follow it. -/
def span (first : Binary64) (rest : List Binary64) : Extent :=
  let e := rest.foldl extend ⟨first, first⟩
  ofEnds e.lo e.hi

end Extent

/-- The coordinates between two corners. -/
structure Rect where
  lon : Extent
  lat : Extent
deriving DecidableEq

namespace Rect

/-- The rectangle with two opposite corners. -/
def ofCorners (a b : Coordinate) : Rect := ⟨.ofEnds a.lon b.lon, .ofEnds a.lat b.lat⟩

/-- The bounding box of some coordinates, if there are any. -/
def bounding? : List Coordinate → Option Rect
  | [] => none
  | c :: cs => some ⟨.span c.lon (cs.map (·.lon)), .span c.lat (cs.map (·.lat))⟩

def bottomLeft (r : Rect) : Coordinate := ⟨r.lon.lo, r.lat.lo⟩

def topRight (r : Rect) : Coordinate := ⟨r.lon.hi, r.lat.hi⟩

end Rect

end GeoPartition
