import GeoPartition.Proofs.Bucket.Classification

/-!
# How many symbols two codes share

**Theorem (`depth_bounded_iff`).** Two codes share the same beginning in either order. It has no
more symbols than the shorter code, and the cell of the codes is no deeper, unless what is shared
runs over the end of a code.

What is shared is a beginning of the small forms, and these are longer than the codes by one
character for each `İ`, and by no other (`length_lowercase`). So a code shares more symbols than it
has only if it has an `İ`, and then exactly if the other code goes along with its small form for
long enough (`length_lt_sharedCode_iff`).
-/

namespace GeoPartition

/-! ## Small forms -/

namespace Text

theorem length_lowerChar (c : Char) : (lowerChar c).length = 1 + if c = 'İ' then 1 else 0 := by
  unfold lowerChar
  by_cases hascii : c.toNat < 0x80
  · have hne : c ≠ 'İ' := by
      rintro rfl
      exact absurd hascii (by decide)
    rw [if_pos hascii, if_neg hne]
    rfl
  · rw [if_neg hascii]
    by_cases hdotted : c = 'İ'
    · rw [if_pos hdotted, if_pos hdotted]
      rfl
    · rw [if_neg hdotted, if_neg hdotted]
      cases caseRuns.find? (·.contains c) <;> rfl

theorem length_lowerBetween (before after : List Char) (c : Char) :
    (lowerBetween before c after).length = 1 + if c = 'İ' then 1 else 0 := by
  by_cases hsigma : c = 'Σ'
  · subst hsigma
    rfl
  · rw [lowerBetween, if_neg hsigma, length_lowerChar]

theorem length_lowercaseAfter (before s : List Char) :
    (lowercaseAfter before s).length = s.length + s.count 'İ' := by
  induction s generalizing before with
  | nil => rfl
  | cons c s ih =>
    rw [lowercaseAfter, List.length_append, length_lowerBetween, ih, List.length_cons,
      List.count_cons]
    simp only [beq_iff_eq]
    omega

/-- **Small forms are longer** by one character for each `İ`. -/
theorem length_lowercase (s : List Char) : (lowercase s).length = s.length + s.count 'İ' :=
  length_lowercaseAfter [] s

theorem length_lt_lowercase_iff {s : List Char} : s.length < (lowercase s).length ↔ 'İ' ∈ s := by
  rw [length_lowercase, Nat.lt_add_right_iff_pos, List.count_pos_iff]

end Text

/-! ## Shared beginnings -/

theorem sharedCode_comm (s t : Code) : sharedCode s t = sharedCode t s :=
  commonPrefix_comm _ _

theorem isLongestShared_sharedCode (s t : Code) :
    IsLongestShared (sharedCode s t) (Text.lowercase s) (Text.lowercase t) :=
  isLongestShared_commonPrefix _ _

theorem length_sharedCode_le (s t : Code) :
    (sharedCode s t).length ≤ min (s.length + s.count 'İ') (t.length + t.count 'İ') := by
  have hshared := isLongestShared_sharedCode s t
  rw [← Text.length_lowercase, ← Text.length_lowercase]
  exact le_min hshared.left.length_le hshared.right.length_le

/-- What `s` shares with `t` runs over the end of `s`: an `İ` makes the small form of `s` longer
than `s`, and the small form of `t` begins with one more character of it than `s` has. -/
structure RunsOver (s t : Code) : Prop where
  dotted : 'İ' ∈ s
  follows : (Text.lowercase s).take (s.length + 1) <+: Text.lowercase t

/-- **A code shares more symbols than it has** exactly if what it shares runs over its end. -/
theorem length_lt_sharedCode_iff {s t : Code} :
    s.length < (sharedCode s t).length ↔ RunsOver s t := by
  have hshared := isLongestShared_sharedCode s t
  constructor
  · intro h
    have hlonger : s.length < (Text.lowercase s).length := h.trans_le hshared.left.length_le
    have hwithin : (Text.lowercase s).take (s.length + 1) <+: sharedCode s t :=
      List.prefix_of_prefix_length_le (List.take_prefix _ _) hshared.left
        ((List.length_take_le _ _).trans h)
    exact ⟨Text.length_lt_lowercase_iff.1 hlonger, hwithin.trans hshared.right⟩
  · intro h
    have hlonger := Text.length_lt_lowercase_iff.2 h.dotted
    have hle := (hshared.longest _ (List.take_prefix _ _) h.follows).length_le
    rw [List.length_take_of_le hlonger] at hle
    exact hle

theorem length_sharedCode_le_iff {s t : Code} :
    (sharedCode s t).length ≤ min s.length t.length ↔ ¬(RunsOver s t ∨ RunsOver t s) := by
  rw [← length_lt_sharedCode_iff, ← length_lt_sharedCode_iff, sharedCode_comm t s, ← min_lt_iff,
    not_lt]

/-! ## Depth -/

namespace Bucket

theorem depth_ofCodes (s t : Code) :
    (ofCodes s t).depth = if (ofCodes s t).isCell then (sharedCode s t).length else 0 := by
  cases h : ofCodes s t with
  | cell u =>
    cases ofCodes_eq_iff_classified.1 h with
    | shared _ _ _ _ hu =>
      rw [hu.eq (isLongestShared_sharedCode s t)]
      rfl
  | region r => rfl
  | unclassified => rfl

/-- **The shorter code bounds what is shared** exactly if that runs over the end of neither code. If
it does run over one, the cell of the codes, if they have one, is deeper than the shorter code is
long. For each `İ` a code shares at most one symbol more than it has. -/
theorem depth_bounded_iff (s t : Code) :
    sharedCode s t = sharedCode t s ∧
    ((sharedCode s t).length ≤ min s.length t.length ↔ ¬(RunsOver s t ∨ RunsOver t s)) ∧
    ((ofCodes s t).depth ≤ min s.length t.length ↔
      ¬((ofCodes s t).isCell = true ∧ (RunsOver s t ∨ RunsOver t s))) ∧
    (sharedCode s t).length ≤ min (s.length + s.count 'İ') (t.length + t.count 'İ') := by
  refine ⟨sharedCode_comm s t, length_sharedCode_le_iff, ?_, length_sharedCode_le s t⟩
  rw [depth_ofCodes, not_and, ← length_sharedCode_le_iff]
  split_ifs with hcell
  · exact ⟨fun h _ => h, fun h => h hcell⟩
  · exact ⟨fun _ h => absurd h hcell, fun _ => Nat.zero_le _⟩

/-- **One capital, two symbols.** Codes of one character share two symbols, and their cell is two
symbols deep. -/
theorem depth_exceeds_dottedCapital :
    sharedCode ['İ'] ['İ'] = ['i', '\u0307'] ∧
    ¬(sharedCode ['İ'] ['İ']).length ≤ min ['İ'].length ['İ'].length ∧
    ¬(ofCodes ['İ'] ['İ']).depth ≤ min ['İ'].length ['İ'].length := by
  decide

end Bucket

end GeoPartition
