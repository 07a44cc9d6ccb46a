import GeoPartition.Bucket.Region

/-!
# The cover of a box

The first symbols of the codes of two corners decide what covers the box between them: the cell
that holds both corners, or a region, or nothing if the first symbol is not one of the alphabet.
-/

namespace GeoPartition

inductive Cover
  | cell (symbol : Char)
  | region (r : Region)
  | unclassified
deriving DecidableEq

namespace Cover

def label : Cover → String
  | cell symbol => String.ofList [symbol]
  | region r => r.name
  | unclassified => ""

/-- The region over the quadrants of the bottom left and the top right corner. A pair that spans
nothing keeps the quadrant of the bottom left corner. -/
def regionOfQuadrants (bottomLeft : Quadrant) (topRight : Option Quadrant) : Region :=
  match bottomLeft, topRight with
  | .southWest, some .northEast => .all
  | .southEast, some .northEast => .east
  | .southWest, some .northWest => .west
  | .northWest, some .northEast => .north
  | .southWest, some .southEast => .south
  | q, _ => .quadrant q

/-- The cover of the box between two cells of the first level. The cells at the opposite corners of
the globe span the whole of it. -/
def ofCorners (bottomLeft topRight : Char) : Cover :=
  let a := bottomLeft.toLower
  let b := topRight.toLower
  if a = b then cell a
  else if a = '0' ∧ b = 'z' then region .global
  else
    match Quadrant.ofSymbol? a with
    | some q => region (regionOfQuadrants q (Quadrant.ofSymbol? b))
    | none => unclassified

end Cover

end GeoPartition
