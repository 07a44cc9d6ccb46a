import GeoPartition.Json.Value

/-!
# Faults of GeoJSON documents

Each fault of a document with the value that is at fault, where the message shows it.
-/

namespace GeoPartition.GeoJson

open Json (Value)

inductive Error
  | malformedJson (f : Json.Flaw)
  | bboxNotArray (v : Value)
  | bboxNotNumeric
  | emptyType
  | notAFeature (type : String)
  | unknownGeometryType (type : String)
  | propertiesNotObject (v : Value)
  | featureGeometryNotObject (v : Value)
  | featureIdentifier (v : Value)
  | notString (v : Value)
  | missingProperty (name : String)
  | notNumber
  | notArray (kind : String)
  | notObject (v : Value)
  | positionTooShort (size : Nat)
  | notGeometry (type : String)

namespace Error

/-- A text between backquotes. -/
def ticked (s : String) : String := "`" ++ s ++ "`"

/-- A value between backquotes. -/
def tickedValue (v : Value) : String := ticked (String.ofList v.compact)

def message : Error → String
  | malformedJson .truncated => "the text ends too early"
  | malformedJson .malformed => "the text is not JSON"
  | bboxNotArray v => "Encountered non-array value for a 'bbox' object: " ++ tickedValue v
  | bboxNotNumeric => "Encountered non-numeric value within 'bbox' array"
  | emptyType => "Expected a Feature, FeatureCollection, or Geometry, but got an empty type"
  | notAFeature t => "Expected a Feature mapping, but got a " ++ ticked t
  | unknownGeometryType t => "Encountered an unknown 'geometry' object type: " ++ ticked t
  | propertiesNotObject v =>
    "Encountered neither object type nor null type for 'properties' object: " ++ tickedValue v
  | featureGeometryNotObject v =>
    "Encountered neither object type nor null type for 'geometry' field on 'feature' object: " ++
      tickedValue v
  | featureIdentifier v =>
    "Encountered neither number type nor string type for 'id' field on 'feature' object: " ++
      tickedValue v
  | notString v => "Expected a String value, but got a " ++ tickedValue v
  | missingProperty name => "Expected a GeoJSON property for " ++ ticked name ++ ", but got None"
  | notNumber => "Expected a floating-point value, but got None"
  | notArray kind => "Expected an Array value, but got " ++ ticked kind
  | notObject v => "Expected an owned Object, but got " ++ tickedValue v
  | positionTooShort size =>
    "A position must contain two or more elements, but got " ++ ticked (toString size)
  | notGeometry t => "Expected GeoJSON type `Geometry`, found " ++ ticked t

end Error

end GeoPartition.GeoJson
