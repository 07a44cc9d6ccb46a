import GeoPartition.Binary64.Arithmetic
import GeoPartition.Binary64.Format
import GeoPartition.Json.Token

/-!
# JSON numbers

A number without point and exponent is an integer if it fits into 64 bits, unsigned or signed, and
is not a negative zero. Every other number is a binary64 number; one that comes out infinite is not
a number of this form.

**Reading.** The digits are kept while they make a number of 64 bits, and those that follow count
for their places only. What is kept is rounded to binary64 and then multiplied or divided by a
rounded power of ten. Each step is rounded on its own, so the result is the nearest number for up to
fifteen digits and powers up to `10^22`, and may be a few steps from it otherwise.
-/

namespace GeoPartition.Json

inductive Number
  | natural (n : Nat)
  | negative (n : Nat)
  | float (x : Binary64)
deriving DecidableEq

/-- Appends digits to `n` while the number stays below `2^64`: the number, and the digits left. -/
def keepDigits (n : Nat) : List Char → Nat × List Char
  | [] => (n, [])
  | d :: ds =>
    let m := Nat.ofDigitChars 10 [d] n
    if m < UInt64.size then keepDigits m ds else (n, d :: ds)

/-- The greatest exponent of a power of ten that is a finite number. -/
def maxPower : Nat := 308

/-- The rounded power of ten. -/
def powerOfTen (e : Nat) : Binary64 := .ofDecimal false 1 e

/-- `x · 10^exponent` by rounded steps, for `x` up to `2^64`. Beyond the greatest power only zero can
be multiplied, and a division goes in two steps, behind which nothing but zero is left. -/
def scale (x : Binary64) (exponent : Int) : Binary64 :=
  match exponent with
  | .ofNat e =>
    if e ≤ maxPower then x.mul (powerOfTen e) else if x = .zero then .zero else .infinity
  | .negSucc e =>
    let e := e + 1
    (x.div (powerOfTen (min e maxPower))).div (powerOfTen (min (e - maxPower) maxPower))

namespace Numeral

/-- The digits that are kept, and the exponent that goes with them. -/
def kept (n : Numeral) : Nat × Int :=
  let (whole, uncounted) := keepDigits 0 n.whole
  let (digits, ignored) := keepDigits whole n.fraction
  (digits, n.exponent + uncounted.length - (n.fraction.length - ignored.length))

/-- The binary64 number that is read, if it is finite. -/
def float? (n : Numeral) : Option Number :=
  let (digits, exponent) := n.kept
  let x := scale (.ofNat digits) exponent
  if x.isFinite then some (.float (if n.negative then x.neg else x)) else none

/-- The number that is written, if it can be held. -/
def number? (n : Numeral) : Option Number :=
  let whole := Nat.ofDigitChars 10 n.whole 0
  if n.integral then
    if n.negative then
      if 0 < whole ∧ whole ≤ 1 <<< 63 then some (.negative whole) else n.float?
    else if whole < UInt64.size then some (.natural whole)
    else n.float?
  else n.float?

end Numeral

namespace Number

/-- Numbers are positional from `10^-5` to below `10^16`, and always show a point or an exponent. -/
def format : NumberFormat := ⟨some (-5, 15), true, .toEven⟩

def text : Number → List Char
  | natural n => Nat.toDigits 10 n
  | negative n => '-' :: Nat.toDigits 10 n
  | float x => format.text x

/-- The nearest binary64 number. -/
def toBinary64 : Number → Binary64
  | natural n => .ofNat n
  | negative n => .ofDecimal true n 0
  | float x => x

end Number

end GeoPartition.Json
