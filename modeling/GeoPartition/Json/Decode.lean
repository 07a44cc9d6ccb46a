import GeoPartition.DataError
import GeoPartition.Json.Draft
import GeoPartition.Json.Number
import GeoPartition.Json.Strings

/-!
# Reading JSON into records

Readers go through a draft in the order of the text, and the first fault is the answer: a flaw of
the text, or data that is not what is expected.

**Records.** An object gives the fields of a record by name, in any order and each at most once;
members with other names are passed over. An array gives the fields in their own order.

**Skipping.** What is passed over must be spelled like JSON, but its strings need not be text, its
numbers need not be small, and it may nest to any depth.
-/

namespace GeoPartition.Json

/-- Why a text could not be read. -/
inductive Error
  | flawed (f : Flaw)
  | data (e : DataError)
deriving DecidableEq

/-- A flaw of the text is a fault of every reader. -/
def orFlaw {α : Type} (x : Except Flaw α) : Except Error α := x.mapError .flawed

namespace Draft

/-! ## Skipping -/

mutual

/-- Passes over a value. -/
def skip : Draft → Except Flaw Unit
  | .null | .bool _ | .number _ => .ok ()
  | .string l => l.skim
  | .array items ending => do
    skipItems items
    ending
  | .object members ending => do
    skipMembers members
    ending
  | .brokenNumber _ => .error .malformed
  | .broken f => .error f

def skipItems : List Draft → Except Flaw Unit
  | [] => .ok ()
  | d :: ds => do
    skip d
    skipItems ds

def skipMembers : List (Lexeme × Draft) → Except Flaw Unit
  | [] => .ok ()
  | (key, d) :: rest => do
    key.skim
    skip d
    skipMembers rest

end

/-! ## Single values -/

/-- A number as it is shown in messages. -/
def foundNumber : Number → Found
  | .natural n => .integer n
  | .negative n => .integer (-n)
  | .float x => .float (Number.format.text x)

/-- What stands in the text. Of a container, only its beginning is looked at. -/
def found : Draft → Except Flaw Found
  | .null => .ok .null
  | .bool b => .ok (.bool b)
  | .number n => match n.number? with
    | some x => .ok (foundNumber x)
    | none => .error .malformed
  | .string l => (fun s => .string (String.ofList s)) <$> l.text
  | .array _ _ => .ok .sequence
  | .object _ _ => .ok .map
  | .brokenNumber f | .broken f => .error f

/-- The fault of a value that is not of the expected kind. -/
def mismatch (expected : String) (d : Draft) : Error :=
  match d.found with
  | .ok found => .data (.invalidType found expected)
  | .error f => .flawed f

/-- A natural number below `2^64`. -/
def natural (expected : String) (d : Draft) : Except Error Nat :=
  match d with
  | .number n => match n.number? with
    | some (.natural n) => .ok n
    | some (.negative n) => .error (.data (.invalidValue (.integer (-n)) expected))
    | _ => .error (d.mismatch expected)
  | d => .error (d.mismatch expected)

def boolean : Draft → Except Error Bool
  | .bool b => .ok b
  | d => .error (d.mismatch "a boolean")

/-- A value that may be null. -/
def nullable {α : Type} (read : Draft → Except Error α) : Draft → Except Error (Option α)
  | .null => .ok none
  | d => some <$> read d

end Draft

/-! ## Records -/

/-- How the fields of type `κ` of a record of type `σ` are read. -/
structure Record (κ σ : Type) where
  name : String
  fields : List κ
  key : κ → String
  /-- Must every field be there? -/
  required : Bool
  read : κ → Draft → σ → Except Error σ

namespace Record

variable {κ σ : Type} [DecidableEq κ] (r : Record κ σ)

/-- The field with a key. -/
def field? (key : List Char) : Option κ := r.fields.find? fun k => (r.key k).toList = key

/-- Reads one member of an object, with the fields seen so far and the record so far. -/
def readMember (sofar : List κ × σ) (member : Lexeme × Draft) : Except Error (List κ × σ) := do
  let (seen, record) := sofar
  let key ← orFlaw member.1.text
  match r.field? key with
  | some k =>
    if k ∈ seen then .error (.data (.duplicateField (r.key k)))
    else
      let record ← r.read k member.2 record
      pure (k :: seen, record)
  | none =>
    orFlaw member.2.skip
    pure (seen, record)

/-- Reads items as the fields that are still to come; the fields left over, and the record. -/
def readItems : List κ → List Draft → σ → Except Error (List κ × σ)
  | fields, [], record => .ok (fields, record)
  | [], _ :: _, _ => .error (.flawed .malformed)
  | k :: fields, d :: ds, record => do
    let record ← r.read k d record
    readItems fields ds record

/-- Reads a record over the values in `start`. -/
def readDraft (start : σ) (d : Draft) : Except Error σ :=
  match d with
  | .object members ending => do
    let (seen, record) ← members.foldlM r.readMember ([], start)
    orFlaw ending
    match r.required, r.fields.find? (· ∉ seen) with
    | true, some k => .error (.data (.missingField (r.key k)))
    | _, _ => pure record
  | .array items ending => do
    let (rest, record) ← r.readItems r.fields items start
    orFlaw ending
    if r.required ∧ rest ≠ [] then
      .error (.data (.invalidLength items.length r.name r.fields.length))
    else pure record
  | d => .error (d.mismatch r.name)

/-- Reads a text that holds a record and nothing else. -/
def readText (start : σ) (s : List Char) : Except Error σ := do
  let d := Document.ofText s
  let record ← r.readDraft start d.root
  orFlaw d.complete
  pure record

end Record

end GeoPartition.Json
