import GeoPartition.Command.Run

/-!
# The program

Reads the files that the command names, runs it, and shows what comes out.
-/

namespace GeoPartition.Program

open Ingest (FileError)

/-- The text of a file. -/
def readText (name : String) : IO (Except FileError String) := do
  match ← (IO.FS.readBinFile name).toBaseIO with
  | .error _ => pure (.error .missing)
  | .ok bytes => match String.fromUTF8? bytes with
    | some s => pure (.ok s)
    | none => pure (.error .notText)

def usage : String := "usage: geobucket (path CODE [CODE] | report FILE | encode LON LAT)"

end GeoPartition.Program

open GeoPartition in
def main (args : List String) : IO UInt32 := do
  let request := Request.ofArgs args
  let names := match request with
    | .run c => c.files
    | _ => []
  let texts ← names.mapM fun name => return (name, ← Program.readText name)
  let result := Command.outcome (fun name => (texts.lookup name).getD (.error .missing)) request
  IO.print result.output
  match request, result.error with
  | .help, _ => IO.println Program.usage
  | .unusable, _ => IO.eprintln Program.usage
  | _, some e =>
    IO.eprintln ("Error: " ++ e.message)
    if let some cause := e.cause? then IO.eprintln ("\nCaused by:\n    " ++ cause)
  | _, none => pure ()
  return UInt32.ofNat result.exit
