import GeoPartition.DataError
import GeoPartition.Toml.Document
import GeoPartition.Binary64.Format

/-!
# Settings as TOML

A document with a key for each setting. Settings that are left out have their defaults, other keys
are passed over, and what is read is checked. Integers of a document end at `2^63`, so settings
beyond that cannot be written.
-/

namespace GeoPartition

namespace Toml

/-- Why a document could not be read. -/
inductive Error
  | malformed
  | data (e : DataError)
deriving DecidableEq

namespace Value

/-- Numbers in messages are positional and always show a point. -/
def floatFormat : NumberFormat := ⟨none, true, .upward⟩

/-- A value as it is shown in messages. -/
def found : Value → Found
  | .string s => .string s
  | .integer n => .integer n
  | .float x => .float (floatFormat.text x)
  | .boolean b => .bool b
  | .array _ => .sequence
  | .dateTime | .table _ => .map

def natural (expected : String) (v : Value) : Except DataError Nat :=
  match v with
  | .integer n =>
    if n < 0 then .error (.invalidValue v.found expected) else .ok n.toNat
  | v => .error (.invalidType v.found expected)

def toBool : Value → Except DataError Bool
  | .boolean b => .ok b
  | v => .error (.invalidType v.found "a boolean")

end Value

end Toml

namespace Settings

open Toml (Value)

/-- How each setting is read. -/
def readEntry (s : Settings) : Field → Value → Except DataError Settings
  | .precision, v => (fun n => { s with precision := .ofNat n }) <$> v.natural "usize"
  | .maxFeatures, v => (fun n => { s with maxFeatures := some (.ofNat n) }) <$> v.natural "usize"
  | .parallel, v => (fun b => { s with parallel := b }) <$> v.toBool
  | .skipInvalid, v => (fun b => { s with skipInvalid := b }) <$> v.toBool

/-- The settings in the entries of a document. -/
def ofEntries (entries : List (String × Value)) : Except DataError Settings :=
  entries.foldlM (fun s e =>
    match Field.all.find? (·.key = e.1) with
    | some f => s.readEntry f e.2
    | none => .ok s) {}

/-- The settings that a text holds, if they can be used. -/
def ofToml (s : String) : Except Toml.Error Settings := do
  match Toml.ofText? s.toList with
  | none => .error .malformed
  | some entries =>
    let settings ← (ofEntries entries).mapError .data
    settings.check.mapError fun e => .data (.invalidSettings e)
    pure settings

/-- The text of an integer, if a document can hold it. -/
def integerText? (n : UInt64) : Option (List Char) :=
  if n.toNat < 1 <<< 63 then some (Nat.toDigits 10 n.toNat) else none

def boolText (b : Bool) : List Char :=
  if b then ['t', 'r', 'u', 'e'] else ['f', 'a', 'l', 's', 'e']

/-- A key with its value, on a line. -/
def entryLine (f : Field) (value : List Char) : List Char :=
  f.key.toList ++ [' ', '=', ' '] ++ value ++ ['\n']

/-- Settings as text, one a line, if a document can hold them. -/
def toToml (s : Settings) : Option String := do
  let precision ← integerText? s.precision
  let maxFeatures ← match s.maxFeatures with
    | some n => (integerText? n).map (entryLine .maxFeatures)
    | none => some []
  pure (String.ofList
    (entryLine .precision precision ++ maxFeatures ++ entryLine .parallel (boolText s.parallel) ++
      entryLine .skipInvalid (boolText s.skipInvalid)))

end Settings

end GeoPartition
