import GeoPartition.Text.Scan

/-!
# The words of TOML

Blanks, comments and line ends; strings in their four forms; keys. A scanner takes the text in
front of it and gives what it read with the text behind, or nothing if it cannot be read.
-/

namespace GeoPartition.Toml

open Text (hex?)

/-! ## Blanks and lines -/

def isBlank (c : Char) : Bool := c = ' ' || c = '\t'

/-- A character of a comment: anything but the controls, of which only the tab may stand. -/
def isCommentChar (c : Char) : Bool := c = '\t' || ' ' ≤ c && c ≠ '\x7f'

def skipBlanks (s : List Char) : List Char := s.dropWhile isBlank

/-- A line end at the front of a text, and what follows it. -/
def newline? : List Char → Option (List Char)
  | '\n' :: s => some s
  | '\r' :: '\n' :: s => some s
  | _ => none

/-- The rest of a line: blanks and a comment up to the line end or the end of the text. -/
def lineEnd? (s : List Char) : Option (List Char) :=
  let rest := match skipBlanks s with
    | '#' :: s => s.dropWhile isCommentChar
    | s => s
  match rest with
  | [] => some []
  | s => newline? s

/-- Passes over blanks, line ends and comments; `inComment` if a comment has begun. -/
def skipLines (inComment : Bool) : List Char → List Char
  | '\n' :: s => skipLines false s
  | '\r' :: '\n' :: s => skipLines false s
  | c :: s =>
    if inComment && isCommentChar c then skipLines true s
    else if c = '#' then skipLines true s
    else if isBlank c then skipLines false s
    else c :: s
  | [] => []

/-! ## Strings -/

/-- The character with a code point, if there is one. -/
def ofCodePoint? (n : Nat) : Option Char := if n.isValidChar then some (Char.ofNat n) else none

/-- The character that a letter after a backslash stands for. -/
def unescape? : Char → Option Char
  | 'b' => some '\x08'
  | 't' => some '\t'
  | 'n' => some '\n'
  | 'f' => some '\x0c'
  | 'r' => some '\r'
  | '"' => some '"'
  | '\\' => some '\\'
  | _ => none

/-- Puts characters in front of what is read later. -/
def prepend (front : List Char) (rest : Option (List Char × List Char)) :
    Option (List Char × List Char) :=
  rest.map fun r => (front ++ r.1, r.2)

/-- The rest of a string in double quotes, on one line. -/
def basicString? : List Char → Option (List Char × List Char)
  | '"' :: s => some ([], s)
  | '\\' :: 'u' :: a :: b :: c :: d :: s => do
    let x ← hex? [a, b, c, d] >>= ofCodePoint?
    prepend [x] (basicString? s)
  | '\\' :: 'U' :: a :: b :: c :: d :: e :: f :: g :: h :: s => do
    let x ← hex? [a, b, c, d, e, f, g, h] >>= ofCodePoint?
    prepend [x] (basicString? s)
  | '\\' :: c :: s => do
    let x ← unescape? c
    prepend [x] (basicString? s)
  | c :: s => if isCommentChar c && c ≠ '\\' then prepend [c] (basicString? s) else none
  | [] => none

/-- The rest of a string in single quotes, on one line. -/
def literalString? : List Char → Option (List Char × List Char)
  | '\'' :: s => some ([], s)
  | c :: s => if isCommentChar c then prepend [c] (literalString? s) else none
  | [] => none

/-- The end of a string of several lines: up to two more quotes belong to the string. -/
def closingQuotes (quote : Char) (s : List Char) : List Char × List Char :=
  let extra := ((s.take 2).takeWhile (· = quote)).length
  (List.replicate extra quote, s.drop extra)

/-- Does a line end follow, after blanks? -/
def isLineEnd (s : List Char) : Bool := (newline? (skipBlanks s)).isSome

/-- The rest of a string in triple double quotes. A backslash at the end of a line joins it to the
next text; `joining` if blanks and line ends are being passed over for that. -/
def basicLines? (joining : Bool) : List Char → Option (List Char × List Char)
  | '"' :: '"' :: '"' :: s => some (closingQuotes '"' s)
  | '\\' :: 'u' :: a :: b :: c :: d :: s => do
    let x ← hex? [a, b, c, d] >>= ofCodePoint?
    prepend [x] (basicLines? false s)
  | '\\' :: 'U' :: a :: b :: c :: d :: e :: f :: g :: h :: s => do
    let x ← hex? [a, b, c, d, e, f, g, h] >>= ofCodePoint?
    prepend [x] (basicLines? false s)
  | '\\' :: c :: s =>
    if isLineEnd (c :: s) then basicLines? true (c :: s)
    else do
      let x ← unescape? c
      prepend [x] (basicLines? false s)
  | '\r' :: '\n' :: s =>
    if joining then basicLines? true s else prepend ['\n'] (basicLines? false s)
  | '\n' :: s => if joining then basicLines? true s else prepend ['\n'] (basicLines? false s)
  | c :: s =>
    if joining && isBlank c then basicLines? true s
    else if isCommentChar c && c ≠ '\\' then prepend [c] (basicLines? false s)
    else none
  | [] => none

/-- The rest of a string in triple single quotes. -/
def literalLines? : List Char → Option (List Char × List Char)
  | '\'' :: '\'' :: '\'' :: s => some (closingQuotes '\'' s)
  | '\r' :: '\n' :: s => prepend ['\n'] (literalLines? s)
  | c :: s => if c = '\n' || isCommentChar c then prepend [c] (literalLines? s) else none
  | [] => none

/-- A line end right behind the opening quotes is not part of the string. -/
def dropNewline (s : List Char) : List Char := (newline? s).getD s

/-- A string in any of its forms. -/
def string? : List Char → Option (List Char × List Char)
  | '"' :: '"' :: '"' :: s => basicLines? false (dropNewline s)
  | '"' :: s => basicString? s
  | '\'' :: '\'' :: '\'' :: s => literalLines? (dropNewline s)
  | '\'' :: s => literalString? s
  | _ => none

/-! ## Keys -/

def isBareKeyChar (c : Char) : Bool := c.isAlphanum || c = '_' || c = '-'

/-- One part of a key: bare, or a string on one line. -/
def keyPart? : List Char → Option (List Char × List Char)
  | '"' :: s => basicString? s
  | '\'' :: s => literalString? s
  | s =>
    let part := s.takeWhile isBareKeyChar
    if part = [] then none else some (part, s.dropWhile isBareKeyChar)

/-- A key of at most `parts` parts with points between them; blanks may stand around each part. -/
def key? : (parts : Nat) → List Char → Option (List String × List Char)
  | 0, _ => none
  | parts + 1, s => do
    let (part, s) ← keyPart? (skipBlanks s)
    match skipBlanks s with
    | '.' :: s => do
      let (rest, s) ← key? parts s
      pure (String.ofList part :: rest, s)
    | s => pure ([String.ofList part], s)

/-- The most parts of a key, and the deepest nesting of values. -/
def maxDepth : Nat := 79

end GeoPartition.Toml
