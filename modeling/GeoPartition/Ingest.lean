import GeoPartition.GeoJson.Document
import GeoPartition.Settings.Basic
import GeoPartition.Tally.Basic

/-!
# Ingestion

The features of a document are filed one after the other, and the tally of their buckets is the
answer. A feature without a bucket is counted as skipped; one that cannot be filed is skipped as
well, or ends the run, as the settings say.
-/

namespace GeoPartition

namespace Ingest

open GeoJson (Feature)

/-! ## Faults -/

/-- Why a feature cannot be filed. -/
inductive FeatureError
  | shape (e : GeoJson.ShapeError)
  | coordinate (e : Coordinate.Error)
deriving DecidableEq

def FeatureError.message : FeatureError → String
  | shape e => e.message
  | coordinate e => e.message

/-- Why a file has no text. -/
inductive FileError
  | missing
  | notText
deriving DecidableEq

def FileError.message : FileError → String
  | missing => "No such file or directory (os error 2)"
  | notText => "stream did not contain valid UTF-8"

/-- Why a run has no answer. -/
inductive Error
  | file (e : FileError)
  | settings (e : Settings.Error)
  | precision (e : PrecisionError)
  | document (e : GeoJson.Error)
  | feature (e : FeatureError)

def Error.message : Error → String
  | file e => "I/O error: " ++ e.message
  | settings e => "Invalid configuration: " ++ e.message
  | precision e => e.message
  | document e => "GeoJSON error: " ++ e.message
  | feature e => "Invalid input: " ++ e.message

/-! ## Features -/

/-- The bucket of a feature, if it has one. -/
def bucket (p : Partitioner) (f : Feature) : Except FeatureError (Option Bucket) :=
  match f.geometry with
  | none => .ok none
  | some g => do
    match ← g.toShape.mapError .shape with
    | none => pure none
    | some s => (p.bucketOfShape s).mapError .coordinate

/-- Counts the outcome of one feature. -/
def count (skipInvalid : Bool) (t : Tally) :
    Except FeatureError (Option Bucket) → Except FeatureError Tally
  | .ok (some b) => .ok (t.record b.path)
  | .ok none => .ok t.recordSkipped
  | .error e => if skipInvalid then .ok t.recordSkipped else .error e

/-- The number of features that are looked at. -/
def limit (s : Settings) (size : Nat) : Nat :=
  match s.maxFeatures with
  | some n => min n.toNat size
  | none => size

/-- The tally of some features. -/
def features (fs : List Feature) (p : Partitioner) (s : Settings) : Except FeatureError Tally :=
  (fs.take (limit s fs.length)).foldlM (fun t f => count s.skipInvalid t (bucket p f)) .empty

/-- The tally of a document. The settings are checked before the text is read. -/
def text (doc : String) (s : Settings) : Except Error Tally := do
  s.check.mapError .settings
  let p ← (Partitioner.ofPrecision s.precision.toNat).mapError .precision
  let d ← (GeoJson.Document.ofText doc).mapError .document
  (features d.features p s).mapError .feature

/-- The tally of a document in a file, which is read before the settings are checked. -/
def file (content : Except FileError String) (s : Settings) : Except Error Tally := do
  let doc ← content.mapError .file
  text doc s

end Ingest

end GeoPartition
