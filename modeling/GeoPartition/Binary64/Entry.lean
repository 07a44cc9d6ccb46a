import GeoPartition.Decimal
import GeoPartition.Text.Scan

/-!
# Numbers typed by hand

An optional sign, then digits with an optional point anywhere among them and an optional exponent,
or one of the words `inf`, `infinity` and `nan` in any case.
-/

namespace GeoPartition.Binary64

open Text (splitSign splitDigits)

/-- An exponent, which fills the text: nothing, or the letter, a sign and digits. -/
def exponentOfText? : List Char → Option Int
  | [] => some 0
  | c :: s =>
    let (negative, digits) := splitSign s
    if (c = 'e' ∨ c = 'E') ∧ digits ≠ [] ∧ digits.all Char.isDigit then
      let n := Nat.ofDigitChars 10 digits 0
      some (if negative then -(n : Int) else n)
    else none

/-- An unsigned decimal number, which fills the text. -/
def decimalOfText? (negative : Bool) (s : List Char) : Option Decimal :=
  let (whole, s) := splitDigits s
  let (fraction, s) := match s with
    | '.' :: s => splitDigits s
    | s => ([], s)
  if whole = [] ∧ fraction = [] then none
  else (exponentOfText? s).map (.ofParts negative whole fraction)

/-- The number that a text spells, if it spells one. -/
def ofText? (s : List Char) : Option Binary64 :=
  let (negative, s) := splitSign s
  let word := String.ofList (s.map Char.toLower)
  if word = "nan" then some nan
  else if word = "inf" ∨ word = "infinity" then some (signed negative .infinite)
  else (decimalOfText? negative s).map (·.toBinary64)

end GeoPartition.Binary64
