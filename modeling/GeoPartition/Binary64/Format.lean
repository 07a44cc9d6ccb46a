import GeoPartition.Binary64.Shortest

/-!
# Numbers as text

A format lays out the fewest digits that read back: the range of magnitudes that are written
positionally, and whether a whole number shows its point.
-/

namespace GeoPartition

/-- How numbers are written. -/
structure NumberFormat where
  /-- The exponents of the leading digit that are written positionally; all, if not given. -/
  positional : Option (Int × Int)
  /-- Does a whole number end in `.0`? -/
  showsPoint : Bool
  /-- The choice between two equally near shortest numbers. -/
  tie : Tie

namespace NumberFormat

/-- `digits · 10^exponent` without an exponent. -/
def positionalText (f : NumberFormat) (digits : List Char) (exponent : Int) : List Char :=
  if 0 ≤ exponent then
    digits ++ List.replicate exponent.toNat '0' ++ if f.showsPoint then ['.', '0'] else []
  else
    let places := exponent.natAbs
    let padded := List.replicate (places + 1 - digits.length) '0' ++ digits
    padded.take (padded.length - places) ++ '.' :: padded.drop (padded.length - places)

/-- `digits · 10^exponent` with one digit before the point and a signed exponent. -/
def scientificText (digits : List Char) (exponent : Int) : List Char :=
  let mantissa := match digits with
    | first :: second :: rest => first :: '.' :: second :: rest
    | short => short
  let leading := exponent + digits.length - 1
  mantissa ++ 'e' :: (if leading < 0 then '-' else '+') :: Nat.toDigits 10 leading.natAbs

/-- A finite magnitude. -/
def magnitudeText (f : NumberFormat) (m : Magnitude) : List Char :=
  let (number, exponent) := m.shortest f.tie
  let digits := Nat.toDigits 10 number
  let leading := exponent + digits.length - 1
  let isPositional := match f.positional with
    | none => true
    | some (least, greatest) => number == 0 || least ≤ leading && leading ≤ greatest
  if isPositional then f.positionalText digits exponent else scientificText digits exponent

/-- A number; `NaN` without a sign, `inf` and `-inf`. -/
def text (f : NumberFormat) : Binary64 → List Char
  | .nan => ['N', 'a', 'N']
  | .signed negative m =>
    (if negative then ['-'] else []) ++
      if m.isFinite then f.magnitudeText m else ['i', 'n', 'f']

end NumberFormat

end GeoPartition
