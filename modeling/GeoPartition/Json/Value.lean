import GeoPartition.Json.Draft
import GeoPartition.Json.Number
import GeoPartition.Json.Strings
import GeoPartition.Keyed

/-!
# JSON values

A draft without flaws is a value, if its strings are text, its numbers can be held and it does not
nest too deep. The members of an object that is read are in the order of their keys, and of a key
that is repeated the last value counts; an object that is made to be written may have any order.

Values are written in two layouts: compact, or one item a line with two spaces for each level.
-/

namespace GeoPartition.Json

inductive Value
  | null
  | bool (b : Bool)
  | number (n : Number)
  | string (s : String)
  | array (items : List Value)
  | object (members : List (String × Value))
deriving Inhabited

namespace Value

/-- The deepest nesting of arrays and objects. -/
def maxDepth : Nat := 127

/-! ## Reading -/

mutual

/-- The value of a draft that may nest `depth` more levels, or its first flaw. -/
def ofDraft (depth : Nat) : Draft → Except Flaw Value
  | .null => .ok null
  | .bool b => .ok (bool b)
  | .number n => match n.number? with
    | some x => .ok (number x)
    | none => .error .malformed
  | .string l => do
    let s ← l.text
    pure (string (String.ofList s))
  | .array items ending => match depth with
    | 0 => .error .malformed
    | depth + 1 => do
      let items ← itemsOfDraft depth items
      ending
      pure (array items)
  | .object members ending => match depth with
    | 0 => .error .malformed
    | depth + 1 => do
      let members ← membersOfDraft depth members []
      ending
      pure (object members)
  | .brokenNumber f => .error f
  | .broken f => .error f

def itemsOfDraft (depth : Nat) : List Draft → Except Flaw (List Value)
  | [] => .ok []
  | d :: ds => do
    let v ← ofDraft depth d
    let vs ← itemsOfDraft depth ds
    pure (v :: vs)

/-- The members `found` so far, and those that follow. -/
def membersOfDraft (depth : Nat) : List (Lexeme × Draft) → (found : List (String × Value)) →
    Except Flaw (List (String × Value))
  | [], found => .ok found
  | (key, d) :: rest, found => do
    let key ← key.text
    let v ← ofDraft depth d
    membersOfDraft depth rest (Keyed.insertWith (fun _ new => new) (String.ofList key) v found)

end

/-- The value that a text spells, or its first flaw. -/
def ofText (s : List Char) : Except Flaw Value := do
  let d := Document.ofText s
  let v ← ofDraft maxDepth d.root
  d.complete
  pure v

/-! ## Writing -/

mutual

/-- A value without blanks. -/
def compact : Value → List Char
  | null => ['n', 'u', 'l', 'l']
  | bool true => ['t', 'r', 'u', 'e']
  | bool false => ['f', 'a', 'l', 's', 'e']
  | number n => n.text
  | string s => quote s.toList
  | array items => '[' :: compactItems items ++ [']']
  | object members => '\x7b' :: compactMembers members ++ ['\x7d']

def compactItems : List Value → List Char
  | [] => []
  | [v] => compact v
  | v :: vs => compact v ++ ',' :: compactItems vs

def compactMembers : List (String × Value) → List Char
  | [] => []
  | [(key, v)] => quote key.toList ++ ':' :: compact v
  | (key, v) :: rest => quote key.toList ++ ':' :: compact v ++ ',' :: compactMembers rest

end

/-- A new line with the indent of a level. -/
def newline (level : Nat) : List Char := '\n' :: List.replicate (2 * level) ' '

mutual

/-- A value with each item on a line of its own, inside `level` containers. -/
def pretty (level : Nat) : Value → List Char
  | null => ['n', 'u', 'l', 'l']
  | bool true => ['t', 'r', 'u', 'e']
  | bool false => ['f', 'a', 'l', 's', 'e']
  | number n => n.text
  | string s => quote s.toList
  | array [] => ['[', ']']
  | array (v :: vs) => '[' :: prettyItems (level + 1) (v :: vs) ++ newline level ++ [']']
  | object [] => ['\x7b', '\x7d']
  | object (m :: ms) => '\x7b' :: prettyMembers (level + 1) (m :: ms) ++ newline level ++ ['\x7d']

def prettyItems (level : Nat) : List Value → List Char
  | [] => []
  | [v] => newline level ++ pretty level v
  | v :: vs => newline level ++ pretty level v ++ ',' :: prettyItems level vs

def prettyMembers (level : Nat) : List (String × Value) → List Char
  | [] => []
  | [(key, v)] => newline level ++ quote key.toList ++ ':' :: ' ' :: pretty level v
  | (key, v) :: rest =>
    newline level ++ quote key.toList ++ ':' :: ' ' :: pretty level v ++
      ',' :: prettyMembers level rest

end

end Value

end GeoPartition.Json
