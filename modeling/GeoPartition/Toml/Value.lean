import GeoPartition.Binary64.Rounding

/-!
# TOML values

The values of a document. Dates and times are told apart from other values, but not from each
other.
-/

namespace GeoPartition.Toml

inductive Value
  | string (s : String)
  | integer (n : Int)
  | float (x : Binary64)
  | boolean (b : Bool)
  | dateTime
  | array (items : List Value)
  | table (entries : List (String × Value))

end GeoPartition.Toml
