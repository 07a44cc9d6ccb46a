import GeoPartition.Toml.Nested

/-!
# TOML documents

A document is a sequence of lines: a comment, a header that opens a table, or a key with its value,
which goes into the table opened last. Reading either gives the entries of the document in their
order, or fails.
-/

namespace GeoPartition.Toml

/-- A header between brackets, or a key with its value, and the text behind the line. -/
inductive Statement
  | blank
  | header (key : List String)
  | itemHeader (key : List String)
  | assignment (key : List String) (v : Value)

/-- A key, a closing bracket or two, and the rest of the line. -/
def header? (closing : List Char) (s : List Char) : Option (List String × List Char) := do
  let (key, s) ← key? maxDepth s
  if closing.isPrefixOf s then do
    let s ← lineEnd? (s.drop closing.length)
    pure (key, s)
  else none

/-- One line of a document, not empty, and the text behind it. -/
def statement? (s : List Char) : Option (Statement × List Char) :=
  match skipBlanks s with
  | '#' :: _ | '\n' :: _ | '\r' :: _ => (lineEnd? s).map fun s => (.blank, s)
  | '[' :: '[' :: s => (header? [']', ']'] s).map fun r => (.itemHeader r.1, r.2)
  | '[' :: s => (header? [']'] s).map fun r => (.header r.1, r.2)
  | s => do
    let (key, s) ← key? maxDepth s
    let s ← char? '=' s
    let s := skipBlanks s
    let (v, s) ← value? (2 * s.length + 1) maxDepth s
    let s ← lineEnd? s
    pure (.assignment key v, s)

/-- What has been read: the entries, and the path of the table opened last. -/
structure Progress where
  entries : Entries
  current : List String

namespace Progress

/-- Takes one line into account. -/
def step (p : Progress) : Statement → Option Progress
  | .blank => some p
  | .header key => do
    let (path, last) ← Entries.splitKey key
    let entries ← p.entries.within path (·.openTable last)
    pure ⟨entries, key⟩
  | .itemHeader key => do
    let (path, last) ← Entries.splitKey key
    let entries ← p.entries.within path (·.openItem last)
    pure ⟨entries, key⟩
  | .assignment key v => do
    let (path, last) ← Entries.splitKey key
    let entries ← p.entries.within p.current (·.assign path last v)
    pure { p with entries := entries }

/-- Reads the rest of a document. -/
def run : (fuel : Nat) → Progress → List Char → Option Progress
  | 0, _, _ => none
  | n + 1, p, s =>
    if skipBlanks s = [] then some p
    else do
      let (x, s) ← statement? s
      let p ← p.step x
      run n p s

end Progress

/-- The entries of the document that a text is. A byte order mark in front is passed over. -/
def ofText? (s : List Char) : Option (List (String × Value)) :=
  let s := match s with
    | '\uFEFF' :: s => s
    | s => s
  (Progress.run (s.length + 1) ⟨[], []⟩ s).map fun p => Node.toValues p.entries

end GeoPartition.Toml
