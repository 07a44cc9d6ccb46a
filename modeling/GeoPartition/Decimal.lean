import GeoPartition.Binary64.Rounding

/-!
# Decimal numbers

A decimal number as it is written: a sign, digits and a power of ten. Each notation reads its own
texts into this form; rounding to binary64 happens once, from here.
-/

namespace GeoPartition

/-- The number `± digits · 10^exponent`. -/
structure Decimal where
  negative : Bool
  digits : Nat
  exponent : Int
deriving DecidableEq

namespace Decimal

/-- The number with these digits before and after the point, times `10^exponent`. -/
def ofParts (negative : Bool) (whole fraction : List Char) (exponent : Int) : Decimal where
  negative := negative
  digits := Nat.ofDigitChars 10 (whole ++ fraction) 0
  exponent := exponent - fraction.length

/-- The nearest binary64 number. -/
def toBinary64 (d : Decimal) : Binary64 := .ofDecimal d.negative d.digits d.exponent

end Decimal

end GeoPartition
