import GeoPartition.Command.Basic
import GeoPartition.Ingest
import GeoPartition.Settings.Json
import GeoPartition.Settings.Toml
import GeoPartition.Tally.Json
import GeoPartition.Tally.Text

/-!
# Running commands

The output of a command, or what went wrong while what was being done. Files are read through a
function, so that a run is a function of the arguments and the files.
-/

namespace GeoPartition.Command

open Ingest (FileError)

/-- What went wrong. -/
inductive Error
  | readingConfig (file : String) (e : FileError)
  | parsingJson (e : Json.Error)
  | parsingToml (e : Toml.Error)
  | bucketing (file : String) (e : Ingest.Error)
  | precision (e : PrecisionError)
  | coordinate (e : Coordinate.Error)

/-- What was being done, or what went wrong with it. -/
def Error.message : Error → String
  | readingConfig file _ => "reading config " ++ file
  | parsingJson _ => "parsing JSON config"
  | parsingToml _ => "parsing TOML config"
  | bucketing file _ => "bucketing " ++ file
  | precision e => (Ingest.Error.precision e).message
  | coordinate e => (Ingest.Error.feature (.coordinate e)).message

/-- Why it could not be done, if that is known. -/
def Error.cause? : Error → Option String
  | readingConfig _ e => some e.message
  | parsingJson (.data e) | parsingToml (.data e) => some e.message
  | parsingJson (.flawed _) | parsingToml .malformed => none
  | bucketing _ e => some e.message
  | precision _ | coordinate _ => none

/-- The part of a file name behind its last point, which must not be in front. -/
def extension? (file : String) : Option String :=
  let last := (file.toList.reverse.takeWhile (· ≠ '/')).reverse
  let ext := (last.reverse.takeWhile (· ≠ '.')).reverse
  if ext.length + 1 < last.length then some (String.ofList ext) else none

/-- The files of a command, in the order in which they are read. -/
def files : Command → List String
  | report o => o.config.toList ++ [o.file]
  | path _ _ | encode _ _ _ => []

variable (read : String → Except FileError String)

/-- The settings in a file: TOML if the name ends so, else JSON. -/
def loadSettings (file : String) : Except Error Settings := do
  let text ← (read file).mapError (.readingConfig file)
  if extension? file = some "toml" then (Settings.ofToml text).mapError .parsingToml
  else (Settings.ofJson text).mapError .parsingJson

/-- The settings of a report: those of the file, with what the options say over them. -/
def settingsOf (o : ReportOptions) : Except Error Settings := do
  let s ← match o.config with
    | some file => loadSettings read file
    | none => .ok {}
  let s := match o.depth with
    | some n => s.withPrecision n
    | none => s
  let s := match o.maxFeatures with
    | some n => s.withMaxFeatures n
    | none => s
  pure (if o.parallel then s.withParallel true else s)

/-- The output of a command. -/
def run : Command → Except Error String
  | path a b => .ok ((Bucket.ofCodes a.toList b.toList).path ++ "\n")
  | report o => do
    let s ← settingsOf read o
    let t ← (Ingest.file (read o.file) s).mapError (.bucketing o.file)
    pure (if o.json then t.toReport.toJson ++ "\n" else t.report)
  | encode lon lat depth => do
    let p ← (Partitioner.ofPrecision depth.toNat).mapError .precision
    let code ← (p.encode ⟨lon, lat⟩).mapError .coordinate
    pure (String.ofList code ++ "\n" ++ (Bucket.ofCodes code code).path ++ "\n")

/-- What the program leaves behind: its exit code, its output, and what went wrong. -/
structure Outcome where
  exit : Nat
  output : String
  error : Option Error

/-- The line that shows the version. -/
def versionLine : String := "geobucket 0.1.0\n"

/-- The outcome of a request. -/
def outcome : Request → Outcome
  | .run c => match run read c with
    | .ok output => ⟨0, output, none⟩
    | .error e => ⟨1, "", some e⟩
  | .version => ⟨0, versionLine, none⟩
  | .help => ⟨0, "", none⟩
  | .unusable => ⟨2, "", none⟩

end GeoPartition.Command
