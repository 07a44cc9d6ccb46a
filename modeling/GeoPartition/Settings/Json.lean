import GeoPartition.Json.Decode
import GeoPartition.Json.Value

/-!
# Settings as JSON

An object with a member for each setting. Settings that are left out have their defaults, and what
is read is checked.
-/

namespace GeoPartition.Settings

open Json (Draft Value Record)

/-- How each setting is read. -/
def readField : Field → Draft → Settings → Except Json.Error Settings
  | .precision, d, s => (fun n => { s with precision := .ofNat n }) <$> d.natural "usize"
  | .maxFeatures, d, s =>
    (fun n => { s with maxFeatures := n.map .ofNat }) <$> d.nullable (Draft.natural "usize")
  | .parallel, d, s => (fun b => { s with parallel := b }) <$> d.boolean
  | .skipInvalid, d, s => (fun b => { s with skipInvalid := b }) <$> d.boolean

def record : Record Field Settings where
  name := "struct Config"
  fields := Field.all
  key := Field.key
  required := false
  read := readField

/-- The settings that a text holds, if they can be used. -/
def ofJson (s : String) : Except Json.Error Settings := do
  let settings ← record.readText {} s.toList
  settings.check.mapError fun e => .data (.invalidSettings e)
  pure settings

/-- The value of each setting. -/
def fieldValue (s : Settings) : Field → Value
  | .precision => .number (.natural s.precision.toNat)
  | .maxFeatures => match s.maxFeatures with
    | some n => .number (.natural n.toNat)
    | none => .null
  | .parallel => .bool s.parallel
  | .skipInvalid => .bool s.skipInvalid

/-- Settings as text, one a line. -/
def toJson (s : Settings) : String :=
  String.ofList ((Value.object (Field.all.map fun f => (f.key, s.fieldValue f))).pretty 0)

end GeoPartition.Settings
