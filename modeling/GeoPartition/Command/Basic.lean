import GeoPartition.Binary64.Entry
import GeoPartition.Command.Grammar

/-!
# Commands

`path` shows the path for two codes, `report` the tally of a document in a file, and `encode` the
code and the path of a point.
-/

namespace GeoPartition

/-- The options of `report`. -/
structure ReportOptions where
  file : String
  depth : Option UInt64
  config : Option String
  maxFeatures : Option UInt64
  parallel : Bool
  json : Bool
deriving DecidableEq

inductive Command
  | path (a b : String)
  | report (o : ReportOptions)
  | encode (lon lat : Binary64) (depth : UInt64)
deriving DecidableEq

/-- What the program is asked to do. -/
inductive Request
  | run (c : Command)
  | version
  | help
  | unusable
deriving DecidableEq

namespace Command

/-! ## Values -/

/-- A natural number below `2^64`, with an optional plus in front. -/
def sizeOfText? (s : String) : Option UInt64 :=
  let digits := match s.toList with
    | '+' :: rest => rest
    | rest => rest
  let n := Nat.ofDigitChars 10 digits 0
  if digits ≠ [] ∧ digits.all Char.isDigit ∧ n < UInt64.size then some (.ofNat n) else none

def isText : Check := fun _ => true

def isFileName : Check := fun s => s ≠ ""

def isSize : Check := fun s => (sizeOfText? s).isSome

def isNumber : Check := fun s => (Binary64.ofText? s.toList).isSome

/-! ## Grammars -/

def depthSwitch : Switch := ⟨"depth", some 'd', some isSize⟩

def pathGrammar : Grammar := ⟨[], [isText, isText], 1, false⟩

def reportGrammar : Grammar where
  switches :=
    [depthSwitch, ⟨"config", some 'c', some isFileName⟩, ⟨"max-features", none, some isSize⟩,
     ⟨"parallel", none, none⟩, ⟨"json", none, none⟩]
  operands := [isFileName]
  required := 1
  negatives := false

def encodeGrammar : Grammar := ⟨[depthSwitch], [isNumber, isNumber], 2, true⟩

/-! ## What is given -/

/-- The number of symbols in a code, if `encode` is not told it. -/
def defaultDepth : UInt64 := 5

def pathOfGiven? (given : Given) : Option Command :=
  match given.operands with
  | [a] => some (.path a a)
  | [a, b] => some (.path a b)
  | _ => none

def reportOfGiven? (given : Given) : Option Command :=
  let value (name : String) : Option String := given.options.lookup name
  match given.operands with
  | [file] =>
    some (.report
      { file := file
        depth := (value "depth").bind sizeOfText?
        config := value "config"
        maxFeatures := (value "max-features").bind sizeOfText?
        parallel := (value "parallel").isSome
        json := (value "json").isSome })
  | _ => none

def encodeOfGiven? (given : Given) : Option Command :=
  match given.operands with
  | [lon, lat] => do
    let lon ← Binary64.ofText? lon.toList
    let lat ← Binary64.ofText? lat.toList
    pure (.encode lon lat (((given.options.lookup "depth").bind sizeOfText?).getD defaultDepth))
  | _ => none

/-- The request that the arguments of a command make. -/
def requestOf (g : Grammar) (command? : Given → Option Command) (args : List String) : Request :=
  match g.parse ⟨[], []⟩ args with
  | .ok given => match command? given with
    | some c => .run c
    | none => .unusable
  | .error .help => .help
  | .error .unusable => .unusable

end Command

/-- The request that the arguments of the program make. -/
def Request.ofArgs : List String → Request
  | [] => unusable
  | "path" :: args => Command.requestOf Command.pathGrammar Command.pathOfGiven? args
  | "report" :: args => Command.requestOf Command.reportGrammar Command.reportOfGiven? args
  | "encode" :: args => Command.requestOf Command.encodeGrammar Command.encodeOfGiven? args
  | ["help"] => help
  | ["help", command] =>
    if command ∈ ["path", "report", "encode", "help"] then help else unusable
  | arg :: _ =>
    match arg.toList with
    | '-' :: 'V' :: _ => version
    | '-' :: 'h' :: _ => help
    | _ => if arg = "--version" then version else if arg = "--help" then help else unusable

end GeoPartition
