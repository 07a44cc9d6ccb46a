/-!
# Digits in groups of three

A count is written with a comma before each group of three digits, counted from the right.
-/

namespace GeoPartition.Text

/-- Puts a comma after each digit that has a positive multiple of three digits behind it. -/
def groupDigits : List Char → List Char
  | [] => []
  | d :: ds =>
    if ds ≠ [] ∧ ds.length % 3 = 0 then d :: ',' :: groupDigits ds else d :: groupDigits ds

/-- A count with commas between its groups of three digits. -/
def grouped (n : Nat) : List Char := groupDigits (Nat.toDigits 10 n)

end GeoPartition.Text
