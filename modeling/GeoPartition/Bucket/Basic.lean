import GeoPartition.Bucket.Cover
import GeoPartition.Bucket.Prefix
import GeoPartition.Geohash.Code

/-!
# Buckets

A bucket is what a box is filed under: the cell with the symbols that the codes of its corners
share, a region, or nothing. Its path is the partition key: the symbols with a separator between
them, or the name of the region.
-/

namespace GeoPartition

inductive Bucket
  | cell (symbols : Code)
  | region (r : Region)
  | unclassified
deriving DecidableEq

namespace Bucket

/-- The bucket of the box between two corners, given by their codes in any case. -/
def ofCodes (bottomLeft topRight : Code) : Bucket :=
  match bottomLeft, topRight with
  | a :: _, b :: _ =>
    match Cover.ofCorners a b with
    | .cell _ => cell (sharedCode bottomLeft topRight)
    | .region r => region r
    | .unclassified => unclassified
  | _, _ => unclassified

/-- The symbols of a cell; none for what is not one. -/
def segments : Bucket → List Char
  | cell symbols => symbols
  | region _ | unclassified => []

/-- The number of symbols of a cell; zero for what is not one. -/
def depth : Bucket → Nat
  | cell symbols => symbols.length
  | region _ | unclassified => 0

def isRegion : Bucket → Bool
  | region _ => true
  | _ => false

def isUnclassified : Bucket → Bool
  | unclassified => true
  | _ => false

def separator : Char := '/'

/-- The partition key. -/
def path : Bucket → String
  | cell symbols => String.ofList (symbols.intersperse separator)
  | region r => r.name
  | unclassified => ""

end Bucket

end GeoPartition
