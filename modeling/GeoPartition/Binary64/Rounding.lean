import GeoPartition.Binary64.Basic

/-!
# Rounding to binary64

`roundHalfEven` rounds a quotient of natural numbers to the nearest whole number, a half to the
even neighbour. `Magnitude.ofUnits` rounds a quotient of units to the nearest magnitude with it: a
number below `2^53` units lies between neighbouring steps one unit apart, and above that the size
of a step is the power of two that leaves 53 binary digits.
-/

namespace GeoPartition

/-- `num / den` to the nearest whole number, a half to the even one. -/
def roundHalfEven (num den : Nat) : Nat :=
  let q := num / den
  let r := num % den
  if 2 * r < den then q
  else if den < 2 * r then q + 1
  else q + q % 2

namespace Magnitude

/-- The binary digits of `num / den` units below the 53 that are kept. -/
def droppedDigits (num den : Nat) : Nat := (num / den).log2 - 52

/-- The magnitude nearest to `num / den` units, a half to the even number of steps; infinity from
half a step below its place on. -/
def ofUnits (num den : Nat) : Magnitude :=
  let k := droppedDigits num den
  ofSteps (k * binade + roundHalfEven num (den <<< k))

/-- The magnitude nearest to `digits · 10^exponent`. Exponents out of all proportion are answered
without computing the power. -/
def ofDecimal (digits : Nat) (exponent : Int) : Magnitude :=
  if digits = 0 then zero
  else
    match exponent with
    | .ofNat e =>
      if 400 < e then infinite
      else ofUnits ((digits * Nat.pow 10 e) <<< 1074) 1
    | .negSucc e =>
      if digits.log2 + 1076 < 3 * (e + 1) then zero
      else ofUnits (digits <<< 1074) (Nat.pow 10 (e + 1))

end Magnitude

namespace Binary64

/-- The number nearest to `± digits · 10^exponent`. -/
def ofDecimal (negative : Bool) (digits : Nat) (exponent : Int) : Binary64 :=
  signed negative (.ofDecimal digits exponent)

/-- The number nearest to a natural number. -/
def ofNat (n : Nat) : Binary64 := ofDecimal false n 0

end Binary64

end GeoPartition
