import GeoPartition.Geo.Shape

/-!
# GeoJSON geometries

A position is a list of numbers of any length, of which the first two count. Points, lines and
polygons become shapes; geometries of several parts become nothing, whatever they hold.
-/

namespace GeoPartition.GeoJson

abbrev Position := List Binary64

inductive Geometry
  | point (p : Position)
  | multiPoint (ps : List Position)
  | lineString (ps : List Position)
  | multiLineString (lines : List (List Position))
  | polygon (rings : List (List Position))
  | multiPolygon (polygons : List (List (List Position)))
  | collection (members : List Geometry)

/-- Why a geometry is no shape. -/
inductive ShapeError
  | shortPosition
  | noRing
deriving DecidableEq

def ShapeError.message : ShapeError → String
  | shortPosition => "Coordinate must have at least 2 values"
  | noRing => "Polygon must have at least one ring"

/-- The coordinate of a position, from its first two values. -/
def coordinate : Position → Except ShapeError Coordinate
  | x :: y :: _ => .ok ⟨x, y⟩
  | _ => .error .shortPosition

namespace Geometry

/-- The shape of a geometry; none if it has several parts. -/
def toShape : Geometry → Except ShapeError (Option Shape)
  | point p => do
    let c ← coordinate p
    pure (some (.point c))
  | lineString ps => do
    let cs ← ps.mapM coordinate
    pure (some (.lineString cs))
  | polygon [] => .error .noRing
  | polygon (exterior :: interiors) => do
    let interiors ← interiors.mapM (·.mapM coordinate)
    let exterior ← exterior.mapM coordinate
    pure (some (.polygon (.ofRings exterior interiors)))
  | multiPoint _ | multiLineString _ | multiPolygon _ | collection _ => .ok none

end Geometry

/-- A feature: a geometry, or the lack of one. What else a feature holds plays no part. -/
structure Feature where
  geometry : Option Geometry

end GeoPartition.GeoJson
