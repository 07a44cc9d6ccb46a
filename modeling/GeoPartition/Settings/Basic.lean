import GeoPartition.Partitioner

/-!
# Settings

The settings of a run over a document of features. Each has a default, and the whole is checked
before it is used: the precision first, then the number of features.
-/

namespace GeoPartition

structure Settings where
  /-- The number of symbols in a code. -/
  precision : UInt64 := 3
  /-- How many features are looked at; all, if not given. -/
  maxFeatures : Option UInt64 := none
  /-- May features be filed in any order? -/
  parallel : Bool := false
  /-- Are features that cannot be filed skipped? -/
  skipInvalid : Bool := true
deriving DecidableEq

namespace Settings

instance : Inhabited Settings := ⟨{}⟩

def withPrecision (s : Settings) (n : UInt64) : Settings := { s with precision := n }

def withMaxFeatures (s : Settings) (n : UInt64) : Settings := { s with maxFeatures := some n }

def withParallel (s : Settings) (b : Bool) : Settings := { s with parallel := b }

def withSkipInvalid (s : Settings) (b : Bool) : Settings := { s with skipInvalid := b }

/-- Why settings cannot be used. -/
inductive Error
  | precision (n : UInt64)
  | noFeatures
deriving DecidableEq

def Error.message : Error → String
  | precision n =>
    "precision must be between 1 and " ++ toString maxPrecision ++ ", got: " ++ toString n.toNat
  | noFeatures => "max_features must be greater than zero"

/-- Checks that settings can be used. -/
def check (s : Settings) : Except Error Unit :=
  if ¬ Partitioner.isPrecision s.precision.toNat then .error (.precision s.precision)
  else if s.maxFeatures = some 0 then .error .noFeatures
  else .ok ()

/-- The settings by name. -/
inductive Field
  | precision
  | maxFeatures
  | parallel
  | skipInvalid
deriving DecidableEq

namespace Field

/-- The fields in the order in which they are written. -/
def all : List Field := [precision, maxFeatures, parallel, skipInvalid]

def key : Field → String
  | precision => "precision"
  | maxFeatures => "max_features"
  | parallel => "parallel"
  | skipInvalid => "skip_invalid"

end Field

end Settings

end GeoPartition
