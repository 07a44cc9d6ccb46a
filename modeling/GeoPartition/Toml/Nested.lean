import GeoPartition.Toml.Scalar
import GeoPartition.Toml.Table

/-!
# Arrays and inline tables

An array may go over several lines and end in a comma; an inline table stays on its line and may
not. The keys of an inline table follow the rules of tables, and it is closed at its bracket.
-/

namespace GeoPartition.Toml

mutual

/-- A value that may nest `depth` more levels, and the text behind it. -/
def value? : (fuel depth : Nat) → List Char → Option (Value × List Char)
  | 0, _, _ => none
  | n + 1, depth, s =>
    match s, depth with
    | '[' :: s, depth + 1 => do
      let (items, s) ← items? n depth (skipLines false s)
      pure (.array items, s)
    | '\x7b' :: s, depth + 1 => do
      match skipBlanks s with
      | '\x7d' :: s => pure (.table [], s)
      | s => do
        let (entries, s) ← members? n depth [] s
        pure (.table (Node.toValues entries), s)
    | s, _ => scalar? s

/-- The rest of an array, where an item or the closing bracket is due. -/
def items? : (fuel depth : Nat) → List Char → Option (List Value × List Char)
  | 0, _, _ => none
  | n + 1, depth, s =>
    match s with
    | ']' :: s => some ([], s)
    | s => do
      let (v, s) ← value? n depth s
      match skipLines false s with
      | ',' :: s => do
        let (rest, s) ← items? n depth (skipLines false s)
        pure (v :: rest, s)
      | ']' :: s => pure ([v], s)
      | _ => none

/-- The rest of an inline table with the entries so far, where a member is due. -/
def members? : (fuel depth : Nat) → Entries → List Char → Option (Entries × List Char)
  | 0, _, _, _ => none
  | n + 1, depth, entries, s => do
    let (key, s) ← key? maxDepth s
    let (path, last) ← Entries.splitKey key
    let s ← char? '=' s
    let (v, s) ← value? n depth (skipBlanks s)
    let entries ← entries.assign path last v
    match skipBlanks s with
    | ',' :: s => members? n depth entries s
    | '\x7d' :: s => pure (entries, s)
    | _ => none

end

end GeoPartition.Toml
