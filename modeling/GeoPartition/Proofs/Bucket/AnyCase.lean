import GeoPartition.Proofs.Bucket.Classification

/-!
# Codes in any case

**Theorem (`ofCodes_anyCase`).** Codes that differ only in the case of ASCII letters, whatever else
stands in them, have the same beginning in common, the same bucket and the same path; and single
symbols that differ so have the same cover and lie in the same quadrants.

For single symbols this is their folding. The small form of a whole text is harder, because a
capital sigma is lowered by what stands around it:

* *classes*: a letter of ASCII is cased and not ignored by case, whichever its case is
  (`cased_toLower`, `caseIgnorable_toLower`),
* *neighbours*: so texts that differ in the case of such letters look the same to a sigma between
  them (`casedFirst_congr`),
* *texts*: going through two such texts side by side, with what was passed kept in step, every
  character has the same small form (`lowercaseAfter_congr`).
-/

namespace GeoPartition

namespace Text

/-- Do two characters differ at most in the case of an ASCII letter? The folding of single
characters changes nothing else. -/
def AnyCase (c d : Char) : Prop := c.toLower = d.toLower

/-! ## Classes -/

/-- The code of a letter of ASCII. -/
def IsLetterCode (n : ℕ) : Prop := 65 ≤ n ∧ n ≤ 90 ∨ 97 ≤ n ∧ n ≤ 122

theorem isLetterCode_of_isUpper {c : Char} (h : c.isUpper) : IsLetterCode c.toNat := by
  simp only [Char.isUpper, UInt32.le_iff_toNat_le, decide_eq_true_eq] at h
  exact .inl h

theorem isLetterCode_toLower {c : Char} (h : c.isUpper) : IsLetterCode c.toLower.toNat := by
  have hlower : c.toLower.isLower := by simp [Char.isAlpha, h]
  simp only [Char.isLower, UInt32.le_iff_toNat_le, Bool.and_eq_true, decide_eq_true_eq] at hlower
  exact .inr hlower

theorem cased_of_isLetterCode {c : Char} (h : IsLetterCode c.toNat) :
    casedRanges.contains c = true := by
  rcases h with h | h
  · exact Ranges.contains_iff.2 ⟨(0x41, 0x5a), by simp [casedRanges], h⟩
  · exact Ranges.contains_iff.2 ⟨(0x61, 0x7a), by simp [casedRanges], h⟩

/-- No range of what case ignores holds a letter of ASCII. -/
theorem caseIgnorableRanges_outside : ∀ r ∈ caseIgnorableRanges,
    r.2 < 65 ∨ 90 < r.1 ∧ r.2 < 97 ∨ 122 < r.1 := by
  decide +kernel

theorem caseIgnorable_of_isLetterCode {c : Char} (h : IsLetterCode c.toNat) :
    caseIgnorableRanges.contains c = false := by
  rw [← Bool.not_eq_true, Ranges.contains_iff]
  rintro ⟨r, hr, hfirst, hlast⟩
  have houtside := caseIgnorableRanges_outside r hr
  unfold IsLetterCode at h
  omega

theorem cased_toLower (c : Char) : casedRanges.contains c.toLower = casedRanges.contains c := by
  by_cases hc : c.isUpper
  · rw [cased_of_isLetterCode (isLetterCode_toLower hc),
      cased_of_isLetterCode (isLetterCode_of_isUpper hc)]
  · rw [Char.toLower_eq_of_not_isUpper hc]

theorem caseIgnorable_toLower (c : Char) :
    caseIgnorableRanges.contains c.toLower = caseIgnorableRanges.contains c := by
  by_cases hc : c.isUpper
  · rw [caseIgnorable_of_isLetterCode (isLetterCode_toLower hc),
      caseIgnorable_of_isLetterCode (isLetterCode_of_isUpper hc)]
  · rw [Char.toLower_eq_of_not_isUpper hc]

/-- What folding does not change is the same in any case. -/
theorem AnyCase.congr {α : Type} {f : Char → α} (hf : ∀ c, f c.toLower = f c) {c d : Char}
    (h : AnyCase c d) : f c = f d := by
  rw [← hf c, h, hf d]

/-! ## Neighbours -/

theorem casedFirst_cons (c : Char) (s : List Char) :
    casedFirst (c :: s) =
      if caseIgnorableRanges.contains c then casedFirst s else casedRanges.contains c := by
  unfold casedFirst
  rw [List.dropWhile_cons]
  split_ifs <;> rfl

theorem casedFirst_congr {s t : List Char} (h : List.Forall₂ AnyCase s t) :
    casedFirst s = casedFirst t := by
  induction h with
  | nil => rfl
  | cons hc _ ih =>
    rw [casedFirst_cons, casedFirst_cons, hc.congr caseIgnorable_toLower, hc.congr cased_toLower,
      ih]

theorem lowerBetween_congr {before before' after after' : List Char} {c d : Char}
    (hbefore : List.Forall₂ AnyCase before before') (hc : AnyCase c d)
    (hafter : List.Forall₂ AnyCase after after') :
    lowerBetween before c after = lowerBetween before' d after' := by
  calc lowerBetween before c after
    _ = lowerBetween before d after :=
        hc.congr (f := (lowerBetween before · after)) (lowerBetween_toLower before after)
    _ = lowerBetween before' d after' := by
        rw [lowerBetween, lowerBetween, lowerSigma, lowerSigma, casedFirst_congr hbefore,
          casedFirst_congr hafter]

/-! ## Texts -/

theorem lowercaseAfter_congr {before before' s t : List Char}
    (hbefore : List.Forall₂ AnyCase before before') (h : List.Forall₂ AnyCase s t) :
    lowercaseAfter before s = lowercaseAfter before' t := by
  induction h generalizing before before' with
  | nil => rfl
  | cons hc hrest ih =>
    rw [lowercaseAfter, lowercaseAfter, lowerBetween_congr hbefore hc hrest, ih (.cons hc hbefore)]

/-- **Small forms.** The case of ASCII letters leaves no trace in the small form of a text. -/
theorem lowercase_congr {s t : List Char} (h : List.Forall₂ AnyCase s t) :
    lowercase s = lowercase t :=
  lowercaseAfter_congr .nil h

end Text

open Text (AnyCase)

/-! ## Codes -/

theorem sharedCode_congr {s s' t t' : Code} (hs : List.Forall₂ AnyCase s s')
    (ht : List.Forall₂ AnyCase t t') : sharedCode s t = sharedCode s' t' := by
  rw [sharedCode, sharedCode, Text.lowercase_congr hs, Text.lowercase_congr ht]

theorem Cover.ofCorners_congr {a a' b b' : Char} (ha : AnyCase a a') (hb : AnyCase b b') :
    ofCorners a b = ofCorners a' b' := by
  unfold AnyCase at ha hb
  simp only [ofCorners, ha, hb]

namespace Bucket

theorem ofCodes_congr {s s' t t' : Code} (hs : List.Forall₂ AnyCase s s')
    (ht : List.Forall₂ AnyCase t t') : ofCodes s t = ofCodes s' t' := by
  cases hs with
  | nil => cases ht <;> rfl
  | cons ha hs =>
    cases ht with
    | nil => rfl
    | cons hb ht =>
      simp only [ofCodes, Cover.ofCorners_congr ha hb, sharedCode_congr (.cons ha hs) (.cons hb ht)]

/-- **Case never changes the bucket.** -/
theorem ofCodes_anyCase {s s' t t' : Code} (hs : List.Forall₂ AnyCase s s')
    (ht : List.Forall₂ AnyCase t t') :
    sharedCode s t = sharedCode s' t' ∧ ofCodes s t = ofCodes s' t' ∧
    (ofCodes s t).path = (ofCodes s' t').path ∧
    ∀ a a', AnyCase a a' →
      (∀ b b', AnyCase b b' → Cover.ofCorners a b = Cover.ofCorners a' b') ∧
      Quadrant.ofSymbol? a = Quadrant.ofSymbol? a' ∧
      ∀ q : Quadrant, q.contains a = q.contains a' := by
  have hbucket := ofCodes_congr hs ht
  refine ⟨sharedCode_congr hs ht, hbucket, congrArg path hbucket, fun a a' ha => ?_⟩
  exact ⟨fun b b' => Cover.ofCorners_congr ha, ha.congr Quadrant.ofSymbol?_toLower,
    fun q => ha.congr q.contains_toLower⟩

/-- A letter in front of a capital sigma and one behind it change their case; the sigma does not end
a word, and the letters of other alphabets stay as they are. -/
theorem ofCodes_anyCase_sigma :
    List.Forall₂ AnyCase ['U', 'Σ', 'x', 'É'] ['u', 'Σ', 'X', 'É'] ∧
    ofCodes ['U', 'Σ', 'x', 'É'] ['U', 'Σ'] = ofCodes ['u', 'Σ', 'X', 'É'] ['u', 'Σ'] ∧
    sharedCode ['U', 'Σ', 'x', 'É'] ['U', 'Σ'] = ['u'] ∧
    Quadrant.ofSymbol? 'U' = Quadrant.ofSymbol? 'u' := by
  have hs : List.Forall₂ AnyCase ['U', 'Σ', 'x', 'É'] ['u', 'Σ', 'X', 'É'] :=
    .cons rfl (.cons rfl (.cons rfl (.cons rfl .nil)))
  have ht : List.Forall₂ AnyCase ['U', 'Σ'] ['u', 'Σ'] := .cons rfl (.cons rfl .nil)
  obtain ⟨hshared, hbucket, -, hsymbols⟩ := ofCodes_anyCase hs ht
  refine ⟨hs, hbucket, hshared.trans (by decide +kernel), (hsymbols 'U' 'u' rfl).2.1⟩

end Bucket

end GeoPartition
