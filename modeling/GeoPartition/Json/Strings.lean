import GeoPartition.Json.Token

/-!
# JSON strings

**Reading.** Two readings of a string as it is written. `Lexeme.text` is its text: escaped units
must be characters or make surrogate pairs. `Lexeme.skim` only looks for flaws of spelling.

**Writing.** Quotes, backslashes and control characters are escaped, the common ones with a letter.
-/

namespace GeoPartition.Json

/-- Is a unit the first half of a surrogate pair? -/
def isLeading (n : Nat) : Bool := 0xd800 ≤ n && n < 0xdc00

/-- Is a unit the second half of a surrogate pair? -/
def isTrailing (n : Nat) : Bool := 0xdc00 ≤ n && n < 0xe000

/-- The character of a surrogate pair. -/
def ofPair (leading trailing : Nat) : Char :=
  Char.ofNat (0x10000 + 0x400 * (leading - 0xd800) + (trailing - 0xdc00))

namespace Lexeme

/-- The text of a string, or its first flaw. -/
def text : Lexeme → Except Flaw (List Char)
  | closed => .ok []
  | broken f => .error f
  | char c rest => (c :: ·) <$> rest.text
  | unit n rest =>
    if isLeading n then
      match rest with
      | unit m rest => if isTrailing m then (ofPair n m :: ·) <$> rest.text else .error .malformed
      | broken f => .error f
      | _ => .error .malformed
    else if isTrailing n then .error .malformed
    else (Char.ofNat n :: ·) <$> rest.text

/-- Looks for a flaw of spelling. -/
def skim : Lexeme → Except Flaw Unit
  | closed => .ok ()
  | broken f => .error f
  | char _ rest | unit _ rest => rest.skim

end Lexeme

/-- One character between quotes. -/
def escape (c : Char) : List Char :=
  match c with
  | '"' => ['\\', '"']
  | '\\' => ['\\', '\\']
  | '\x08' => ['\\', 'b']
  | '\x0c' => ['\\', 'f']
  | '\n' => ['\\', 'n']
  | '\r' => ['\\', 'r']
  | '\t' => ['\\', 't']
  | c =>
    if c < ' ' then ['\\', 'u', '0', '0', Nat.digitChar (c.toNat / 16), Nat.digitChar (c.toNat % 16)]
    else [c]

/-- A text between quotes. -/
def quote (s : List Char) : List Char := '"' :: s.flatMap escape ++ ['"']

end GeoPartition.Json
