import GeoPartition.GeoJson.Error
import GeoPartition.GeoJson.Geometry

/-!
# GeoJSON documents

A document is a geometry, a feature, or a collection of features. It is read from a JSON value; the
members of an object are looked at in a fixed order, and the first fault is the answer.
-/

namespace GeoPartition.GeoJson

open Json (Value)

/-! ## Members -/

/-- The members of an object, in the order of their names. -/
abbrev Members := List (String × Value)

/-- The kind of a value, for messages. -/
def kindOf : Value → String
  | .null => "Null"
  | .bool _ => "Bool"
  | .number _ => "Number"
  | .string _ => "String"
  | .array _ => "Array"
  | .object _ => "Object"

def property (name : String) (ms : Members) : Except Error Value :=
  match ms.lookup name with
  | some v => .ok v
  | none => .error (.missingProperty name)

/-- The type of an object inside a document. -/
def typeOf (ms : Members) : Except Error String := do
  match ← property "type" ms with
  | .string t => pure t
  | v => .error (.notString v)

/-- Checks the bounding box of an object, if it has one. -/
def checkBbox (ms : Members) : Except Error Unit :=
  match ms.lookup "bbox" with
  | none | some .null => .ok ()
  | some (.array vs) =>
    vs.forM fun
      | .number _ => .ok ()
      | _ => .error .bboxNotNumeric
  | some v => .error (.bboxNotArray v)

/-- The items of a member that must be an array. -/
def arrayOf (name : String) (ms : Members) : Except Error (List Value) := do
  match ← property name ms with
  | .array vs => pure vs
  | v => .error (.notArray (kindOf v))

/-! ## Coordinates -/

/-- Each item of an array. -/
def listOf {α : Type} (read : Value → Except Error α) : Value → Except Error (List α)
  | .array vs => vs.mapM read
  | _ => .error (.notArray "None")

def numberOf : Value → Except Error Binary64
  | .number n => .ok n.toBinary64
  | _ => .error .notNumber

def positionOf : Value → Except Error Position
  | .array vs => if vs.length < 2 then .error (.positionTooShort vs.length) else vs.mapM numberOf
  | _ => .error (.notArray "None")

/-! ## Geometries -/

/-- The types of geometry. -/
inductive Geometry.Kind
  | point
  | multiPoint
  | lineString
  | multiLineString
  | polygon
  | multiPolygon
  | collection
deriving DecidableEq

namespace Geometry

def Kind.all : List Kind :=
  [point, multiPoint, lineString, multiLineString, polygon, multiPolygon, collection]

def Kind.name : Kind → String
  | point => "Point"
  | multiPoint => "MultiPoint"
  | lineString => "LineString"
  | multiLineString => "MultiLineString"
  | polygon => "Polygon"
  | multiPolygon => "MultiPolygon"
  | collection => "GeometryCollection"

def Kind.ofName? (s : String) : Option Kind := Kind.all.find? (·.name = s)

/-- The geometry type of an object inside a document. -/
def kind (ms : Members) : Except Error Kind := do
  let t ← typeOf ms
  match Kind.ofName? t with
  | some k => pure k
  | none => .error (.unknownGeometryType t)

theorem sizeOf_lookup {name : String} {v : Value} {ms : Members} (h : ms.lookup name = some v) :
    sizeOf v < sizeOf ms := by
  induction ms with
  | nil => simp at h
  | cons m ms ih =>
    obtain ⟨k, w⟩ := m
    rw [List.lookup_cons] at h
    split at h
    · cases h
      simp
      omega
    · have := ih h
      simp
      omega

theorem sizeOf_arrayOf {name : String} {vs : List Value} {ms : Members}
    (h : arrayOf name ms = .ok vs) : sizeOf vs < sizeOf ms := by
  unfold arrayOf property at h
  split at h
  · rename_i v hv
    cases v with
    | array items =>
      cases h
      have := sizeOf_lookup hv
      simp at this
      omega
    | _ => cases h
  · cases h

mutual

/-- The geometry with these members. -/
def ofMembers (ms : Members) : Except Error Geometry := do
  checkBbox ms
  match ← kind ms with
  | .point => point <$> (property "coordinates" ms >>= positionOf)
  | .multiPoint => multiPoint <$> (property "coordinates" ms >>= listOf positionOf)
  | .lineString => lineString <$> (property "coordinates" ms >>= listOf positionOf)
  | .multiLineString =>
    multiLineString <$> (property "coordinates" ms >>= listOf (listOf positionOf))
  | .polygon => polygon <$> (property "coordinates" ms >>= listOf (listOf positionOf))
  | .multiPolygon =>
    multiPolygon <$> (property "coordinates" ms >>= listOf (listOf (listOf positionOf)))
  | .collection =>
    match _h : arrayOf "geometries" ms with
    | .ok vs => collection <$> ofValues vs
    | .error e => .error e
termination_by sizeOf ms
decreasing_by exact sizeOf_arrayOf _h

/-- The geometries of some values, in their order. -/
def ofValues (vs : List Value) : Except Error (List Geometry) :=
  match vs with
  | [] => .ok []
  | .object ms :: vs => do
    let g ← ofMembers ms
    let gs ← ofValues vs
    pure (g :: gs)
  | v :: _ => .error (.notObject v)
termination_by sizeOf vs

end

end Geometry

/-! ## Features -/

namespace Feature

/-- The geometry of a feature, if it has one. -/
def geometryOf (ms : Members) : Except Error (Option Geometry) := do
  match ← property "geometry" ms with
  | .null => pure none
  | .object ms => some <$> Geometry.ofMembers ms
  | v => .error (.featureGeometryNotObject v)

def checkProperties (ms : Members) : Except Error Unit :=
  match ms.lookup "properties" with
  | none | some .null | some (.object _) => .ok ()
  | some v => .error (.propertiesNotObject v)

def checkIdentifier (ms : Members) : Except Error Unit :=
  match ms.lookup "id" with
  | none | some (.number _) | some (.string _) => .ok ()
  | some v => .error (.featureIdentifier v)

/-- The feature with these members. -/
def ofMembers (ms : Members) : Except Error Feature := do
  let t ← typeOf ms
  if t ≠ "Feature" then .error (.notAFeature t)
  let geometry ← geometryOf ms
  checkProperties ms
  checkIdentifier ms
  checkBbox ms
  pure ⟨geometry⟩

def ofValue : Value → Except Error Feature
  | .object ms => ofMembers ms
  | v => .error (.notObject v)

end Feature

/-! ## Documents -/

inductive Document
  | geometry (g : Geometry)
  | feature (f : Feature)
  | featureCollection (fs : List Feature)

namespace Document

/-- The document with these members. -/
def ofMembers (ms : Members) : Except Error Document :=
  match ms.lookup "type" with
  | some (.string t) =>
    if t = "Feature" then feature <$> Feature.ofMembers ms
    else if t = "FeatureCollection" then do
      checkBbox ms
      let vs ← arrayOf "features" ms
      featureCollection <$> vs.mapM Feature.ofValue
    else if (Geometry.Kind.ofName? t).isSome then geometry <$> Geometry.ofMembers ms
    else .error .emptyType
  | _ => .error (.unknownGeometryType "type")

def ofValue : Value → Except Error Document
  | .object ms => ofMembers ms
  | v => .error (.notObject v)

/-- The document that a text holds. -/
def ofText (s : String) : Except Error Document := do
  let v ← (Value.ofText s.toList).mapError .malformedJson
  ofValue v

/-- The features of a document; a geometry is a feature of its own. -/
def features : Document → List Feature
  | geometry g => [⟨some g⟩]
  | feature f => [f]
  | featureCollection fs => fs

/-- The geometry that a document is. -/
def asGeometry : Document → Except Error Geometry
  | geometry g => .ok g
  | feature _ => .error (.notGeometry "Feature")
  | featureCollection _ => .error (.notGeometry "FeatureCollection")

end Document

end GeoPartition.GeoJson
