import GeoPartition.Toml.Value

/-!
# Tables under construction

The tables of a document grow while it is read. How a table came about decides what may still be
added to it: a table with a header of its own is closed to dotted keys, one that a dotted key made
is open to others like it, and one that only stands on the way to a deeper header may still get its
own.

Entries keep the order in which they were made. A table that gets its header late moves to the end.
-/

namespace GeoPartition.Toml

/-- How a table came about. -/
inductive Origin
  | header
  | onTheWay
  | dotted
deriving DecidableEq

inductive Node
  | value (v : Value)
  | table (origin : Origin) (entries : List (String × Node))
  | tables (items : List (List (String × Node)))

abbrev Entries := List (String × Node)

namespace Entries

/-- Puts a node in the place of the one with the same key. -/
def replace (key : String) (node : Node) : Entries → Entries
  | [] => []
  | (k, old) :: rest => if k = key then (k, node) :: rest else (k, old) :: replace key node rest

/-- Removes the node with a key. -/
def erase (key : String) : Entries → Entries
  | [] => []
  | (k, old) :: rest => if k = key then rest else (k, old) :: erase key rest

/-- Changes the last table of an array of tables. -/
def changeLast (change : Entries → Option Entries) (items : List Entries) :
    Option (List Entries) := do
  let last ← items.getLast?
  let last ← change last
  pure (items.dropLast ++ [last])

/-- Gives a value to a dotted key. The tables on the way must have been made by dotted keys, or are
made now; only the first steps may go through tables on the way to a header. -/
def assign : (path : List String) → (key : String) → Value → Entries → Option Entries
  | [], key, v, es =>
    match es.lookup key with
    | some _ => none
    | none => some (es ++ [(key, .value v)])
  | k :: path, key, v, es =>
    match es.lookup k with
    | none => do
      let sub ← assign path key v []
      pure (es ++ [(k, .table .dotted sub)])
    | some (.table origin sub) =>
      if origin = .header ∨ path = [] ∧ origin ≠ .dotted then none
      else do
        let sub ← assign path key v sub
        pure (replace k (.table origin sub) es)
    | some (.tables items) =>
      if path = [] then none
      else do
        let items ← changeLast (assign path key v) items
        pure (replace k (.tables items) es)
    | some (.value _) => none

/-- Changes the table at the path of a header. Tables that are not there are made on the way, and
of an array of tables the last one is meant. -/
def within : (path : List String) → (Entries → Option Entries) → Entries → Option Entries
  | [], change, es => change es
  | k :: path, change, es =>
    match es.lookup k with
    | none => do
      let sub ← within path change []
      pure (es ++ [(k, .table .onTheWay sub)])
    | some (.table origin sub) => do
      let sub ← within path change sub
      pure (replace k (.table origin sub) es)
    | some (.tables items) => do
      let items ← changeLast (within path change) items
      pure (replace k (.tables items) es)
    | some (.value _) => none

/-- Makes the table of a header. -/
def openTable (key : String) (es : Entries) : Option Entries :=
  match es.lookup key with
  | none => some (es ++ [(key, .table .header [])])
  | some (.table .onTheWay sub) => some (erase key es ++ [(key, .table .header sub)])
  | some _ => none

/-- Makes one more table in an array of tables. -/
def openItem (key : String) (es : Entries) : Option Entries :=
  match es.lookup key with
  | none => some (es ++ [(key, .tables [[]])])
  | some (.tables items) => some (replace key (.tables (items ++ [[]])) es)
  | some _ => none

/-- The last part of a key and the parts before it. -/
def splitKey (key : List String) : Option (List String × String) :=
  key.getLast?.map fun last => (key.dropLast, last)

end Entries

mutual

/-- The value that a finished node is. -/
def Node.toValue : Node → Value
  | .value v => v
  | .table _ entries => .table (Node.toValues entries)
  | .tables items => .array (Node.toTables items)

def Node.toValues : List (String × Node) → List (String × Value)
  | [] => []
  | (key, node) :: rest => (key, node.toValue) :: Node.toValues rest

def Node.toTables : List (List (String × Node)) → List Value
  | [] => []
  | entries :: rest => .table (Node.toValues entries) :: Node.toTables rest

end

end GeoPartition.Toml
