import Mathlib
import GeoPartition.Text.Case

/-!
# The two foldings agree

Single symbols are folded by ASCII capitals only, whole texts by every capital. A symbol folded
first by the one and then by the other is folded by the other alone (`lowerBetween_toLower`). At the
beginning of a text the small form of a character does not depend on what follows: a capital sigma
is the end of a word only behind another letter. So symbols that the first folding makes equal begin
the small forms of their texts alike (`head?_lowercase_eq`).
-/

namespace GeoPartition.Text

theorem toNat_lt_of_isUpper {c : Char} (h : c.isUpper) : c.toNat < 0x80 := by
  simp only [Char.isUpper, UInt32.le_iff_toNat_le, decide_eq_true_eq] at h
  have : c.toNat ≤ 90 := h.2
  omega

theorem toNat_lt_of_isLower {c : Char} (h : c.isLower) : c.toNat < 0x80 := by
  simp only [Char.isLower, UInt32.le_iff_toNat_le, Bool.and_eq_true, decide_eq_true_eq] at h
  have : c.toNat ≤ 122 := h.2
  omega

theorem lowerBetween_ascii (before after : List Char) {c : Char} (h : c.toNat < 0x80) :
    lowerBetween before c after = [c.toLower] := by
  have hsigma : c ≠ 'Σ' := by
    rintro rfl
    exact absurd h (by decide)
  rw [lowerBetween, if_neg hsigma, lowerChar_ascii h]

/-- **The foldings agree.** -/
theorem lowerBetween_toLower (before after : List Char) (c : Char) :
    lowerBetween before c.toLower after = lowerBetween before c after := by
  by_cases hc : c.isUpper
  · have hlower : c.toLower.isLower := by simp [Char.isAlpha, hc]
    rw [lowerBetween_ascii before after (toNat_lt_of_isLower hlower),
      lowerBetween_ascii before after (toNat_lt_of_isUpper hc), Char.toLower_toLower_eq_toLower]
  · rw [Char.toLower_eq_of_not_isUpper hc]

/-- The first character of a text is made small whatever follows it. -/
theorem lowerBetween_first (c : Char) (after after' : List Char) :
    lowerBetween [] c after = lowerBetween [] c after' := by
  simp [lowerBetween, lowerSigma, casedFirst]

theorem head?_lowercase_cons (c : Char) (s : List Char) :
    (lowercase (c :: s)).head? = (lowerBetween [] c []).head? := by
  rw [lowercase, lowercaseAfter, List.head?_append_of_ne_nil _ (lowerBetween_ne_nil [] s c),
    lowerBetween_first c s []]

/-- Texts that begin with the same symbol, in any case, have small forms that begin alike. -/
theorem head?_lowercase_eq {a b : Char} (h : a.toLower = b.toLower) (s t : List Char) :
    (lowercase (a :: s)).head? = (lowercase (b :: t)).head? := by
  rw [head?_lowercase_cons, head?_lowercase_cons, ← lowerBetween_toLower, h, lowerBetween_toLower]

theorem lowercase_cons_ne_nil (c : Char) (s : List Char) : lowercase (c :: s) ≠ [] :=
  List.append_ne_nil_of_left_ne_nil (lowerBetween_ne_nil [] s c) _

end GeoPartition.Text
