import GeoPartition.Json.Tokens

/-!
# Drafts

A draft is the structure of a text whether or not the text is JSON: what can be read is a value, and
the first thing out of place is a flaw in its place. Readers walk a draft in the order of the text
and stop at the first fault, so what they find first may be a flaw or a fault of their own.

**Endings.** A container carries how it ended: closed, or with a flaw where a separator or the
closing bracket was due. Behind a separator an item is due, so a flaw there is an item.
-/

namespace GeoPartition.Json

/-- How a container ended. -/
abbrev Ending := Except Flaw Unit

inductive Draft
  | null
  | bool (b : Bool)
  | number (n : Numeral)
  | string (l : Lexeme)
  | array (items : List Draft) (ending : Ending)
  | object (members : List (Lexeme × Draft)) (ending : Ending)
  | brokenNumber (f : Flaw)
  | broken (f : Flaw)

/-- A text: its value, and whether more follows. -/
structure Document where
  root : Draft
  complete : Ending

namespace Draft

/-- What is wrong where the tokens do not go on as they should. -/
def stop : List Token → Flaw
  | [] => .truncated
  | _ :: _ => .malformed

mutual

/-- The value in front of some tokens, and the tokens behind it. -/
def value : (fuel : Nat) → List Token → Draft × List Token
  | 0, _ => (broken .truncated, [])
  | n + 1, ts =>
    match ts with
    | .null :: ts => (null, ts)
    | .bool b :: ts => (bool b, ts)
    | .number x :: ts => (number x, ts)
    | .string l :: ts => (string l, ts)
    | .openArray :: .closeArray :: ts => (array [] (.ok ()), ts)
    | .openArray :: ts =>
      let (items, ending, ts) := items n ts
      (array items ending, ts)
    | .openObject :: .closeObject :: ts => (object [] (.ok ()), ts)
    | .openObject :: ts =>
      let (members, ending, ts) := members n ts
      (object members ending, ts)
    | .brokenNumber f :: _ => (brokenNumber f, [])
    | .broken f :: _ => (broken f, [])
    | ts => (broken (stop ts), [])

/-- One or more items with separators between them, and the tokens behind the array. -/
def items : (fuel : Nat) → List Token → List Draft × Ending × List Token
  | 0, _ => ([], .error .truncated, [])
  | n + 1, ts =>
    let (item, ts) := value n ts
    match ts with
    | .comma :: ts =>
      let (rest, ending, ts) := items n ts
      (item :: rest, ending, ts)
    | .closeArray :: ts => ([item], .ok (), ts)
    | ts => ([item], .error (stop ts), [])

/-- One or more members with separators between them, and the tokens behind the object. -/
def members : (fuel : Nat) → List Token → List (Lexeme × Draft) × Ending × List Token
  | 0, _ => ([], .error .truncated, [])
  | n + 1, ts =>
    match ts with
    | .string key :: .colon :: ts =>
      let (item, ts) := value n ts
      match ts with
      | .comma :: ts =>
        let (rest, ending, ts) := members n ts
        ((key, item) :: rest, ending, ts)
      | .closeObject :: ts => ([(key, item)], .ok (), ts)
      | ts => ([(key, item)], .error (stop ts), [])
    | .string key :: ts => ([(key, broken (stop ts))], .error (stop ts), [])
    | ts => ([], .error (stop ts), [])

end

end Draft

/-- The document of a text. A token uses up at most two levels of the search for values. -/
def Document.ofText (s : List Char) : Document :=
  let ts := tokens s
  let (root, rest) := Draft.value (2 * ts.length + 1) ts
  ⟨root, if rest = [] then .ok () else .error .malformed⟩

end GeoPartition.Json
