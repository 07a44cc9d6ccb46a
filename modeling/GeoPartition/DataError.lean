import GeoPartition.Settings.Basic
import GeoPartition.Text.Quoted

/-!
# Documents that hold something else

What can be wrong with a well-formed document: a value of another kind or out of range, a field that
is missing or there twice, or settings that cannot be used.
-/

namespace GeoPartition

/-- What stands in a document. A number with a fraction is kept as the document's format writes
it. -/
inductive Found
  | null
  | bool (b : Bool)
  | integer (n : Int)
  | float (text : List Char)
  | string (s : String)
  | sequence
  | map
deriving DecidableEq

def Found.text : Found → String
  | null => "null"
  | bool true => "boolean `true`"
  | bool false => "boolean `false`"
  | integer n => "integer `" ++ toString n ++ "`"
  | float text => "floating point `" ++ String.ofList text ++ "`"
  | string s => "string " ++ Text.quoted s
  | sequence => "sequence"
  | map => "map"

inductive DataError
  | invalidType (found : Found) (expected : String)
  | invalidValue (found : Found) (expected : String)
  | invalidLength (length : Nat) (record : String) (fields : Nat)
  | missingField (field : String)
  | duplicateField (field : String)
  | invalidSettings (e : Settings.Error)
deriving DecidableEq

def DataError.message : DataError → String
  | invalidType found expected => "invalid type: " ++ found.text ++ ", expected " ++ expected
  | invalidValue found expected => "invalid value: " ++ found.text ++ ", expected " ++ expected
  | invalidLength length record fields =>
    "invalid length " ++ toString length ++ ", expected " ++ record ++ " with " ++
      toString fields ++ " elements"
  | missingField field => "missing field `" ++ field ++ "`"
  | duplicateField field => "duplicate field `" ++ field ++ "`"
  | invalidSettings e => "Invalid configuration: " ++ e.message

end GeoPartition
