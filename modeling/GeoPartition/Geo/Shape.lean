import GeoPartition.Geo.Rect

/-!
# Shapes

The planar geometries that are bucketed, and the ones that are passed over because they have more
than one part.
-/

namespace GeoPartition

namespace Coordinate

/-- Do two coordinates name the same place? Numbers are compared, so the zeros are equal and what
is not a number equals nothing. -/
def same (a b : Coordinate) : Bool := a.lon.same b.lon && a.lat.same b.lat

/-- A ring ends where it begins: the first coordinate is repeated at the end if need be. -/
def closeRing (ring : List Coordinate) : List Coordinate :=
  match ring.head?, ring.getLast? with
  | some first, some last => if first.same last then ring else ring ++ [first]
  | _, _ => ring

end Coordinate

structure Polygon where
  exterior : List Coordinate
  interiors : List (List Coordinate)
deriving DecidableEq

/-- The polygon with these rings, each of them closed. -/
def Polygon.ofRings (exterior : List Coordinate) (interiors : List (List Coordinate)) : Polygon :=
  ⟨Coordinate.closeRing exterior, interiors.map Coordinate.closeRing⟩

inductive Shape
  | point (c : Coordinate)
  | line (start finish : Coordinate)
  | lineString (cs : List Coordinate)
  | polygon (p : Polygon)
  | rect (r : Rect)
  | triangle (a b c : Coordinate)
  | multiPoint (cs : List Coordinate)
  | multiLineString (lines : List (List Coordinate))
  | multiPolygon (ps : List Polygon)
  | collection (members : List Shape)

namespace Shape

/-- The box around a shape of one part: none for an empty shape, and none for a shape of several
parts. The holes of a polygon do not count. -/
def boundingRect? : Shape → Option Rect
  | point c => some (.ofCorners c c)
  | line start finish => some (.ofCorners start finish)
  | lineString cs => Rect.bounding? cs
  | polygon p => Rect.bounding? p.exterior
  | rect r => some r
  | triangle a b c => Rect.bounding? [a, b, c]
  | multiPoint _ | multiLineString _ | multiPolygon _ | collection _ => none

end Shape

end GeoPartition
