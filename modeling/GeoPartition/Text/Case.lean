import GeoPartition.Text.CaseTable

/-!
# Small letters

Two foldings. `Char.toLower` of the core library changes ASCII capitals only and is used for single
symbols. `lowercase` changes whole texts: it knows every capital, `İ` becomes two characters, and
a capital sigma becomes `ς` at the end of a word and `σ` elsewhere.
-/

namespace GeoPartition.Text

/-- The small form of a character, whatever its neighbours are. -/
def lowerChar (c : Char) : List Char :=
  if c.toNat < 0x80 then [c.toLower]
  else if c = 'İ' then ['i', '\u0307']
  else
    match caseRuns.find? (·.contains c) with
    | some r => [r.apply c]
    | none => [c]

/-- Does a cased character come first, once the characters that case ignores are passed over? -/
def casedFirst (s : List Char) : Bool :=
  match s.dropWhile caseIgnorableRanges.contains with
  | [] => false
  | c :: _ => casedRanges.contains c

/-- The small form of a capital sigma with the text before it, nearest first, and after it. -/
def lowerSigma (before after : List Char) : Char :=
  if casedFirst before && !casedFirst after then 'ς' else 'σ'

/-- The small form of `c` between the text before it, nearest first, and after it. -/
def lowerBetween (before : List Char) (c : Char) (after : List Char) : List Char :=
  if c = 'Σ' then [lowerSigma before after] else lowerChar c

/-- The small form of a text that follows `before`, which is given nearest first. -/
def lowercaseAfter (before : List Char) : List Char → List Char
  | [] => []
  | c :: rest => lowerBetween before c rest ++ lowercaseAfter (c :: before) rest

/-- The small form of a text. -/
def lowercase (s : List Char) : List Char := lowercaseAfter [] s

@[simp] theorem lowercase_nil : lowercase [] = [] := rfl

theorem lowerChar_ascii {c : Char} (h : c.toNat < 0x80) : lowerChar c = [c.toLower] := by
  simp [lowerChar, h]

theorem lowerChar_ne_nil (c : Char) : lowerChar c ≠ [] := by
  unfold lowerChar
  split
  · simp
  · split
    · simp
    · split <;> simp

theorem lowerBetween_ne_nil (before after : List Char) (c : Char) :
    lowerBetween before c after ≠ [] := by
  unfold lowerBetween
  split
  · simp
  · exact lowerChar_ne_nil c

end GeoPartition.Text
