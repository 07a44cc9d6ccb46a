import GeoPartition.Text.PrintTable

/-!
# Text quoted in messages

A text stands between double quotes. Quotes, backslashes and the common controls are escaped with
one letter; characters that would not show, or that would attach to the quote before them, are
written as their code point in hexadecimal.
-/

namespace GeoPartition.Text

/-- A number in lower-case hexadecimal. -/
def hex (n : Nat) : List Char := Nat.toDigits 16 n

/-- One character inside quotes. -/
def quoteChar (c : Char) : List Char :=
  match c with
  | '\x00' => ['\\', '0']
  | '\t' => ['\\', 't']
  | '\n' => ['\\', 'n']
  | '\r' => ['\\', 'r']
  | '"' => ['\\', '"']
  | '\\' => ['\\', '\\']
  | c =>
    if extendingRanges.contains c || invisibleRanges.contains c then
      ['\\', 'u', '\x7b'] ++ hex c.toNat ++ ['\x7d']
    else [c]

/-- A text between double quotes. -/
def quoted (s : String) : String :=
  String.ofList ('"' :: s.toList.flatMap quoteChar ++ ['"'])

end GeoPartition.Text
