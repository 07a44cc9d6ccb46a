import GeoPartition.Decimal

/-!
# Fewest digits that read back

The decimal numbers that round to a magnitude fill an interval, with its ends if the number of
steps is even. Of the decimal grids of one digit, two digits and so on, the first with a point in
the interval is taken; such a point is one of the magnitude's two neighbours on the grid, and the
nearer one is chosen.

Everything is compared in whole numbers: lengths are measured in half units of `2^-1075`, times
`10^400`, so that the ends of the interval and the points of every grid are natural numbers.
-/

namespace GeoPartition

/-- Which of two equally near neighbours is taken. -/
inductive Tie
  | upward
  | toEven
deriving DecidableEq

namespace Magnitude

/-- The factor that makes all lengths whole: the finest grid is coarser than its inverse. -/
def wholeScale : Nat := Nat.pow 10 400

/-- The middle between a step and the next one, in half units. -/
def middleAbove (n : Nat) : Nat := unitsOfSteps n + unitsOfSteps (n + 1)

/-- Does a length, in half units times `10^400`, round to `m`? -/
def reaches (m : Magnitude) (length : Nat) : Bool :=
  let low := middleAbove (m.steps - 1) * wholeScale
  let high := middleAbove m.steps * wholeScale
  if m.steps % 2 = 0 then low ≤ length && length ≤ high else low < length && length < high

/-- The exponent of the leading decimal digit of a positive finite magnitude. -/
def leadingExponent (m : Magnitude) : Int :=
  (Nat.toDigits 10 ((m.units * wholeScale) >>> 1074)).length - 401

/-- The neighbour of `m` on the grid of multiples of `10^exponent` that rounds to `m` and is
nearest, if one of the two rounds to it. -/
def neighbour? (m : Magnitude) (tie : Tie) (exponent : Int) : Option Nat :=
  let grid := Nat.pow 10 (exponent + 400).toNat <<< 1075
  let length := 2 * m.units * wholeScale
  let below := length / grid
  let rest := length % grid
  match m.reaches (below * grid), m.reaches ((below + 1) * grid) with
  | true, true =>
    if 2 * rest < grid then some below
    else if grid < 2 * rest then some (below + 1)
    else match tie with
      | .upward => some (below + 1)
      | .toEven => some (below + below % 2)
  | true, false => some below
  | false, true => some (below + 1)
  | false, false => none

/-- The decimal number with the fewest digits that rounds to the finite magnitude `m`, and of those
the nearest. Seventeen digits always suffice. -/
def shortest (m : Magnitude) (tie : Tie) : Nat × Int :=
  let onGrid (further : Nat) : Option (Nat × Int) :=
    let exponent := m.leadingExponent - further
    (m.neighbour? tie exponent).map fun digits =>
      if digits % 10 = 0 then (digits / 10, exponent + 1) else (digits, exponent)
  if m.units = 0 then (0, 0) else ((List.range 17).findSome? onGrid).getD (0, 0)

end Magnitude

end GeoPartition
