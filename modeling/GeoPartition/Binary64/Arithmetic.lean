import GeoPartition.Binary64.Rounding

/-!
# Sums, products and quotients

The exact sum, product or quotient of two finite numbers, rounded once. Units make all of them
exact: sums stay whole numbers of units, a product of units is a whole number of units of units, and
a quotient is one of whole numbers.
-/

namespace GeoPartition.Binary64

/-- The rounded sum. An exact zero is negative only if both terms are. -/
def add (x y : Binary64) : Binary64 :=
  match x.units?, y.units? with
  | some i, some j =>
    if i + j = 0 then signed (x.isNegative && y.isNegative) .zero
    else signed (i + j < 0) (.ofUnits (i + j).natAbs 1)
  | some _, none => y
  | none, some _ => x
  | none, none => if x = y then x else nan

/-- The rounded difference. -/
def sub (x y : Binary64) : Binary64 := x.add y.neg

/-- The rounded product. -/
def mul (x y : Binary64) : Binary64 :=
  match x, y with
  | signed s m, signed t n =>
    if m.isFinite && n.isFinite then signed (s ^^ t) (.ofUnits (m.units * n.units) (1 <<< 1074))
    else if m = .zero || n = .zero then nan
    else signed (s ^^ t) .infinite
  | _, _ => nan

/-- The rounded quotient. -/
def div (x y : Binary64) : Binary64 :=
  match x, y with
  | signed s m, signed t n =>
    if m.isFinite && n.isFinite then
      if n = .zero then if m = .zero then nan else signed (s ^^ t) .infinite
      else signed (s ^^ t) (.ofUnits (m.units <<< 1074) n.units)
    else if m.isFinite then signed (s ^^ t) .zero
    else if n.isFinite then signed (s ^^ t) .infinite
    else nan
  | _, _ => nan

end GeoPartition.Binary64
