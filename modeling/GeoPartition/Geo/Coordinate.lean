import GeoPartition.Binary64.Format

/-!
# Geographic coordinates

A coordinate is a longitude and a latitude in degrees. It is valid if both are finite and within
the limits of their axis; the longitude is looked at first.
-/

namespace GeoPartition

inductive Axis
  | longitude
  | latitude
deriving DecidableEq

namespace Axis

def label : Axis → String
  | longitude => "Longitude"
  | latitude => "Latitude"

/-- The greatest number of degrees in either direction. -/
def limit : Axis → Nat
  | longitude => 180
  | latitude => 90

end Axis

structure Coordinate where
  lon : Binary64
  lat : Binary64
deriving DecidableEq, Inhabited

namespace Coordinate

/-- Why a coordinate is not on the globe. -/
inductive Error
  | notFinite (axis : Axis) (value : Binary64)
  | outside (axis : Axis) (value : Binary64)
deriving DecidableEq

/-- Degrees in messages: positional, without a point in whole numbers. -/
def degreeFormat : NumberFormat := ⟨none, false, .upward⟩

def Error.message : Error → String
  | notFinite axis value =>
    axis.label ++ " is not a finite number: " ++ String.ofList (degreeFormat.text value)
  | outside axis value =>
    let limit := toString axis.limit
    axis.label ++ " " ++ String.ofList (degreeFormat.text value) ++ " is outside -" ++ limit ++
      "..=" ++ limit

/-- Checks a number of degrees against its axis. -/
def checkAxis (axis : Axis) (value : Binary64) : Except Error Unit :=
  if !value.isFinite then .error (.notFinite axis value)
  else if (Binary64.ofNat axis.limit).lt value.abs then .error (.outside axis value)
  else .ok ()

/-- Checks that a coordinate is on the globe. -/
def check (c : Coordinate) : Except Error Unit := do
  checkAxis .longitude c.lon
  checkAxis .latitude c.lat

end Coordinate

end GeoPartition
