import GeoPartition.Decimal
import GeoPartition.Toml.Lexical
import GeoPartition.Toml.Value

/-!
# Single TOML values

Numbers, booleans, dates and times. A number that begins like a date is tried as one first, then as
a float, then as an integer; what follows the shorter readings cannot follow a value, so the order
never hides a longer one.
-/

namespace GeoPartition.Toml

open Text (splitSign hexDigit?)

/-! ## Digits -/

/-- Digits with single underscores between them, and the text behind. -/
def digitRun (isDigit : Char → Bool) : List Char → List Char × List Char
  | '_' :: c :: s =>
    if isDigit c then
      let r := digitRun isDigit s
      (c :: r.1, r.2)
    else ([], '_' :: c :: s)
  | c :: s =>
    if isDigit c then
      let r := digitRun isDigit s
      (c :: r.1, r.2)
    else ([], c :: s)
  | [] => ([], [])

/-- A run that begins with a digit. -/
def digits? (isDigit : Char → Bool) (s : List Char) : Option (List Char × List Char) :=
  match s with
  | c :: _ => if isDigit c then some (digitRun isDigit s) else none
  | [] => none

/-- The digits of a decimal integer; a zero in front stands alone. -/
def wholeDigits? : List Char → Option (List Char × List Char)
  | '0' :: s => some (['0'], s)
  | s => digits? Char.isDigit s

/-! ## Numbers -/

/-- A float's exponent, behind its letter. -/
def exponent? (s : List Char) : Option (Int × List Char) := do
  let (minus, s) := splitSign s
  let (ds, s) ← digits? Char.isDigit s
  let n := Nat.ofDigitChars 10 ds 0
  pure (if minus then -(n : Int) else n, s)

/-- A float with a point or an exponent or both. One above all finite numbers is refused. -/
def decimalFloat? (s : List Char) : Option (Binary64 × List Char) := do
  let (minus, s) := splitSign s
  let (whole, s) ← wholeDigits? s
  let (fraction, s, pointed) ← match s with
    | '.' :: s => (digits? Char.isDigit s).map fun r => (r.1, r.2, true)
    | s => some ([], s, false)
  let (exponent, s) ← match s with
    | 'e' :: s | 'E' :: s => exponent? s
    | s => if pointed then some (0, s) else none
  let x := (Decimal.ofParts minus whole fraction exponent).toBinary64
  if x = Binary64.infinity then none else some (x, s)

/-- A float in a word. -/
def wordFloat? (s : List Char) : Option (Binary64 × List Char) :=
  let (minus, s) := splitSign s
  match s with
  | 'i' :: 'n' :: 'f' :: s => some (.signed minus .infinite, s)
  | 'n' :: 'a' :: 'n' :: s => some (.nan, s)
  | _ => none

/-- A natural number in a base, behind its letter. -/
def baseInteger? (base : Nat) (s : List Char) : Option (Int × List Char) := do
  let isDigit (c : Char) : Bool := (hexDigit? c).any (· < base)
  let (ds, s) ← digits? isDigit s
  let n := ds.foldl (fun n c => base * n + (hexDigit? c).getD 0) 0
  if n < 1 <<< 63 then some (n, s) else none

/-- An integer of 64 bits. -/
def integer? : List Char → Option (Int × List Char)
  | '0' :: 'x' :: s => baseInteger? 16 s
  | '0' :: 'o' :: s => baseInteger? 8 s
  | '0' :: 'b' :: s => baseInteger? 2 s
  | s => do
    let (minus, s) := splitSign s
    let (ds, s) ← wholeDigits? s
    let n := Nat.ofDigitChars 10 ds 0
    if minus then if n ≤ 1 <<< 63 then some (-(n : Int), s) else none
    else if n < 1 <<< 63 then some (n, s)
    else none

/-! ## Dates and times -/

/-- A number of exactly `n` digits between two bounds. -/
def fixed? (n low high : Nat) (s : List Char) : Option (Nat × List Char) :=
  let ds := s.take n
  let x := Nat.ofDigitChars 10 ds 0
  if ds.length = n ∧ ds.all Char.isDigit ∧ low ≤ x ∧ x ≤ high then some (x, s.drop n) else none

/-- A character that must stand in front. -/
def char? (c : Char) : List Char → Option (List Char)
  | d :: s => if d = c then some s else none
  | [] => none

def isLeapYear (year : Nat) : Bool := year % 4 = 0 && (year % 100 ≠ 0 || year % 400 = 0)

def daysInMonth (year month : Nat) : Nat :=
  if month = 2 then if isLeapYear year then 29 else 28
  else if month = 4 ∨ month = 6 ∨ month = 9 ∨ month = 11 then 30
  else 31

/-- The text behind a date. -/
def date? (s : List Char) : Option (List Char) := do
  let (year, s) ← fixed? 4 0 9999 s
  let s ← char? '-' s
  let (month, s) ← fixed? 2 1 12 s
  let s ← char? '-' s
  let (_, s) ← fixed? 2 1 (daysInMonth year month) s
  pure s

/-- The text behind a fraction of a second, if there is one. -/
def skipFraction (s : List Char) : List Char :=
  match s with
  | '.' :: t => if t.takeWhile Char.isDigit = [] then s else t.dropWhile Char.isDigit
  | _ => s

/-- The text behind a time of day. A leap second counts as one. -/
def time? (s : List Char) : Option (List Char) := do
  let (_, s) ← fixed? 2 0 23 s
  let s ← char? ':' s
  let (_, s) ← fixed? 2 0 59 s
  let s ← char? ':' s
  let (_, s) ← fixed? 2 0 60 s
  pure (skipFraction s)

/-- The text behind an offset from universal time. -/
def offset? : List Char → Option (List Char)
  | 'Z' :: s | 'z' :: s => some s
  | '+' :: s | '-' :: s => do
    let (_, s) ← fixed? 2 0 23 s
    let s ← char? ':' s
    let (_, s) ← fixed? 2 0 59 s
    pure s
  | _ => none

/-- The text behind a time that follows a date, with its offset. -/
def timeOfDate? : List Char → Option (List Char)
  | 'T' :: s | 't' :: s | ' ' :: s => (time? s).map fun s => (offset? s).getD s
  | _ => none

/-- The text behind a date, a time, or both. -/
def dateTime? (s : List Char) : Option (List Char) :=
  match date? s with
  | some s => some ((timeOfDate? s).getD s)
  | none => time? s

/-! ## Any single value -/

def scalar? (s : List Char) : Option (Value × List Char) :=
  match s with
  | 't' :: 'r' :: 'u' :: 'e' :: s => some (.boolean true, s)
  | 'f' :: 'a' :: 'l' :: 's' :: 'e' :: s => some (.boolean false, s)
  | '"' :: _ | '\'' :: _ => (string? s).map fun r => (.string (String.ofList r.1), r.2)
  | s =>
    ((dateTime? s).map fun s => (.dateTime, s))
      <|> ((decimalFloat? s).map fun r => (.float r.1, r.2))
      <|> ((wordFloat? s).map fun r => (.float r.1, r.2))
      <|> ((integer? s).map fun r => (.integer r.1, r.2))

end GeoPartition.Toml
