import GeoPartition.Text.Scan

/-!
# JSON tokens

Text is cut into tokens without regard to their order. A token that breaks the rules of its kind is
the last one; whatever reads the tokens stops there at the latest.

A string is kept in the pieces in which it is written, because readers differ in what they accept:
an escape `\uXXXX` is half of a surrogate pair to one and any sixteen bits to another.
-/

namespace GeoPartition.Json

open Text (splitSign splitDigits hex?)

/-- What is wrong with a text that is not JSON: it ends too early, or something is out of place. -/
inductive Flaw
  | truncated
  | malformed
deriving DecidableEq

/-- A string as it is written, up to its closing quote or its first flaw. -/
inductive Lexeme
  | closed
  | broken (f : Flaw)
  | char (c : Char) (rest : Lexeme)
  | unit (n : Nat) (rest : Lexeme)
deriving DecidableEq

/-- A number as it is written: its sign, the digits before and behind its point, its exponent, and
whether it has neither a point nor an exponent. -/
structure Numeral where
  negative : Bool
  whole : List Char
  fraction : List Char
  exponent : Int
  integral : Bool
deriving DecidableEq

inductive Token
  | openArray
  | closeArray
  | openObject
  | closeObject
  | colon
  | comma
  | null
  | bool (b : Bool)
  | number (n : Numeral)
  | string (l : Lexeme)
  | brokenNumber (f : Flaw)
  | broken (f : Flaw)
deriving DecidableEq

/-! ## Characters -/

def isBlank (c : Char) : Bool := c = ' ' || c = '\n' || c = '\t' || c = '\r'

/-- The character that a letter after a backslash stands for. -/
def unescape? : Char → Option Char
  | '"' => some '"'
  | '\\' => some '\\'
  | '/' => some '/'
  | 'b' => some '\x08'
  | 'f' => some '\x0c'
  | 'n' => some '\n'
  | 'r' => some '\r'
  | 't' => some '\t'
  | _ => none

/-! ## Strings -/

/-- What stands for four hexadecimal digits that are not there: the text ends within four bytes, or
other characters stand in their place. -/
def missingHex (s : List Char) : Flaw :=
  if s.foldl (fun n c => n + c.utf8Size) 0 < 4 then .truncated else .malformed

/-- The rest of a string behind its opening quote, and the text behind the string. -/
def scanString : List Char → Lexeme × List Char
  | [] => (.broken .truncated, [])
  | '"' :: s => (.closed, s)
  | ['\\'] => (.broken .truncated, [])
  | '\\' :: 'u' :: a :: b :: c :: d :: s =>
    match hex? [a, b, c, d] with
    | some n => (.unit n (scanString s).1, (scanString s).2)
    | none => (.broken .malformed, [])
  | '\\' :: 'u' :: s => (.broken (missingHex s), [])
  | '\\' :: e :: s =>
    match unescape? e with
    | some c => let (l, s) := scanString s; (.char c l, s)
    | none => (.broken .malformed, [])
  | c :: s =>
    if c < ' ' then (.broken .malformed, [])
    else let (l, s) := scanString s; (.char c l, s)

/-! ## Numbers -/

/-- Where digits have to stand and none do. -/
def missingDigits (s : List Char) : Flaw := if s = [] then .truncated else .malformed

/-- The exponent of a number, if it has one. -/
def scanExponent (negative : Bool) (whole fraction : List Char) (integral : Bool)
    (s : List Char) : Token × List Char :=
  match s with
  | 'e' :: s | 'E' :: s =>
    let sign := splitSign s
    let digits := splitDigits sign.2
    if digits.1 = [] then (.brokenNumber (missingDigits digits.2), [])
    else
      let n := Nat.ofDigitChars 10 digits.1 0
      let exponent := if sign.1 then -(n : Int) else n
      (.number ⟨negative, whole, fraction, exponent, false⟩, digits.2)
  | s => (.number ⟨negative, whole, fraction, 0, integral⟩, s)

/-- The fraction of a number, if it has one, and its exponent. -/
def scanFraction (negative : Bool) (whole s : List Char) : Token × List Char :=
  match s with
  | '.' :: s =>
    let fraction := splitDigits s
    if fraction.1 = [] then (.brokenNumber (missingDigits fraction.2), [])
    else scanExponent negative whole fraction.1 false fraction.2
  | s => scanExponent negative whole [] true s

/-- A number behind its sign, and the text behind it. A zero in front stands alone. -/
def scanNumber (negative : Bool) (s : List Char) : Token × List Char :=
  let whole := splitDigits s
  if whole.1 = [] then (.brokenNumber (missingDigits whole.2), [])
  else if whole.1.head? = some '0' ∧ whole.1 ≠ ['0'] then (.brokenNumber .malformed, [])
  else scanFraction negative whole.1 whole.2

/-! ## Words -/

/-- A word of which `expected` is still to come: the token it makes, and the text behind it. -/
def scanWord (token : Token) : (expected s : List Char) → Token × List Char
  | [], s => (token, s)
  | _ :: _, [] => (.broken .truncated, [])
  | e :: es, c :: s => if e = c then scanWord token es s else (.broken .malformed, [])

/-! ## Texts -/

/-- The token in front of a text that does not begin with a blank, and the text behind it. -/
def scanToken (c : Char) (s : List Char) : Token × List Char :=
  match c with
  | '[' => (.openArray, s)
  | ']' => (.closeArray, s)
  | '\x7b' => (.openObject, s)
  | '\x7d' => (.closeObject, s)
  | ':' => (.colon, s)
  | ',' => (.comma, s)
  | '"' => let (l, s) := scanString s; (.string l, s)
  | 'n' => scanWord .null ['u', 'l', 'l'] s
  | 't' => scanWord (.bool true) ['r', 'u', 'e'] s
  | 'f' => scanWord (.bool false) ['a', 'l', 's', 'e'] s
  | '-' => scanNumber true s
  | c => if c.isDigit then scanNumber false (c :: s) else (.broken .malformed, [])

end GeoPartition.Json
