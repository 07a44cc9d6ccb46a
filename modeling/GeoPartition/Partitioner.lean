import GeoPartition.Bucket.Basic
import GeoPartition.Geo.Shape

/-!
# Partitioners

A partitioner files points, boxes and shapes under buckets, with codes of a fixed number of
symbols, its precision. Only the corners of a box are encoded, and a shape is filed as the box
around it.
-/

namespace GeoPartition

/-- The most symbols that a code can have. -/
def maxPrecision : Nat := 12

structure Partitioner where
  precision : Nat
  one_le : 1 ≤ precision
  le_max : precision ≤ maxPrecision

/-- A number of symbols that codes cannot have. -/
structure PrecisionError where
  given : Nat
deriving DecidableEq

def PrecisionError.message (e : PrecisionError) : String :=
  "Geohash precision must be between 1 and " ++ toString maxPrecision ++ ", got: " ++
    toString e.given

namespace Axis

/-- Degrees are kept this far below the upper limit, where the scale of the axis ends. -/
def margin : Binary64 := .ofDecimal false 1 (-9)

/-- The greatest number of degrees that is encoded as it is. -/
def ceiling (axis : Axis) : Binary64 := (Binary64.ofNat axis.limit).sub margin

end Axis

/-- The nearest coordinate below the upper limits of both axes. -/
def Coordinate.clamp (c : Coordinate) : Coordinate :=
  ⟨c.lon.min Axis.longitude.ceiling, c.lat.min Axis.latitude.ceiling⟩

namespace Partitioner

/-- Is a number of symbols one that codes can have? -/
def isPrecision (n : Nat) : Prop := 1 ≤ n ∧ n ≤ maxPrecision

instance (n : Nat) : Decidable (isPrecision n) := inferInstanceAs (Decidable (_ ∧ _))

/-- The partitioner with a precision, if codes can have it. -/
def ofPrecision (n : Nat) : Except PrecisionError Partitioner :=
  if h : isPrecision n then .ok ⟨n, h.1, h.2⟩ else .error ⟨n⟩

/-- The code of a valid coordinate. -/
def encode (p : Partitioner) (c : Coordinate) : Except Coordinate.Error Code := do
  c.check
  pure (Geohash.code p.precision c.clamp)

/-- The bucket of a box. -/
def bucketOfRect (p : Partitioner) (r : Rect) : Except Coordinate.Error Bucket := do
  let bottomLeft ← p.encode r.bottomLeft
  let topRight ← p.encode r.topRight
  pure (.ofCodes bottomLeft topRight)

/-- The bucket of a point: the cell of its whole code. -/
def bucketOfPoint (p : Partitioner) (c : Coordinate) : Except Coordinate.Error Bucket := do
  let code ← p.encode c
  pure (.ofCodes code code)

/-- The bucket of a shape; none if it has several parts or is empty. -/
def bucketOfShape (p : Partitioner) : Shape → Except Coordinate.Error (Option Bucket)
  | .point c => some <$> p.bucketOfPoint c
  | s =>
    match s.boundingRect? with
    | some r => some <$> p.bucketOfRect r
    | none => pure none

end Partitioner

end GeoPartition
