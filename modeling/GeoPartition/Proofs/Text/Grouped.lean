import GeoPartition.Proofs.Text.Digits
import GeoPartition.Text.Grouped

/-!
# Digits in groups

**Theorem (`grouped_exact`).** A grouped count is the one text that has the digits of the count and
whose commas part them into groups, one to three digits first and three in every other one. So it is
read back by taking the commas out, and no two counts have the same one.

Commas are written from the left and counted from the right. The induction is on the digits that
are still to be written (`exists_groups`): they stand in groups already, and the first group is full
exactly if their number is a multiple of three. Then the digit in front of them begins a group of
its own, and otherwise it joins the first one.
-/

namespace GeoPartition.Text

/-! ## Characters -/

/-- A character of a grouped count. -/
def isCountChar (c : Char) : Bool := c.isDigit || c = ','

theorem groupDigits_cons (d : Char) (ds : List Char) :
    groupDigits (d :: ds) = d :: groupDigits ds ∨
      groupDigits (d :: ds) = d :: ',' :: groupDigits ds := by
  rw [groupDigits]
  split_ifs
  · exact .inr rfl
  · exact .inl rfl

theorem mem_groupDigits {c : Char} {ds : List Char} (h : c ∈ groupDigits ds) :
    c ∈ ds ∨ c = ',' := by
  induction ds with
  | nil => exact .inl h
  | cons d ds ih =>
    rcases groupDigits_cons d ds with heq | heq
    all_goals
      rw [heq] at h
      simp only [List.mem_cons] at h ⊢
    · rcases h with h | h
      · exact .inl (.inl h)
      · exact (ih h).imp_left .inr
    · rcases h with h | h | h
      · exact .inl (.inl h)
      · exact .inr h
      · exact (ih h).imp_left .inr

theorem isCountChar_of_mem_grouped {n : ℕ} {c : Char} (h : c ∈ grouped n) : isCountChar c := by
  rcases mem_groupDigits h with h | h
  · simp [isCountChar, isDigit_of_mem_toDigits h]
  · simp [isCountChar, h]

theorem length_groupDigits (ds : List Char) :
    (groupDigits ds).length = ds.length + (ds.length - 1) / 3 := by
  induction ds with
  | nil => rfl
  | cons d ds ih =>
    rw [groupDigits]
    split_ifs with h
    · have hpos := List.length_pos_of_ne_nil h.1
      simp only [List.length_cons, ih]
      omega
    · simp only [ne_eq, ← List.length_eq_zero_iff] at h
      simp only [List.length_cons, ih]
      omega

/-! ## Groups -/

/-- Groups of digits: one to three digits in the first, and three in every other one. -/
structure AreGroups (groups : List (List Char)) : Prop where
  ne_nil : groups ≠ []
  first : ∀ g ∈ groups.head?, 1 ≤ g.length ∧ g.length ≤ 3
  others : ∀ g ∈ groups.tail, g.length = 3
  digits : ∀ g ∈ groups, ∀ c ∈ g, c.isDigit

namespace AreGroups

variable {first : List Char} {rest groups groups' : List (List Char)}

theorem nil_notMem (h : AreGroups groups) : [] ∉ groups := by
  obtain ⟨first, rest, rfl⟩ := List.exists_cons_of_ne_nil h.ne_nil
  intro hmem
  rcases List.mem_cons.1 hmem with rfl | hmem
  · cases (h.first [] rfl).1
  · cases h.others [] hmem

theorem comma_notMem (h : AreGroups groups) : ∀ g ∈ groups, ',' ∉ g :=
  fun g hg hmem => absurd (h.digits g hg ',' hmem) (by decide)

theorem map_length (h : AreGroups (first :: rest)) :
    (first :: rest).map List.length = first.length :: List.replicate rest.length 3 :=
  congrArg _ (List.map_eq_replicate_iff.2 h.others)

theorem length_flatten (h : AreGroups (first :: rest)) :
    (first :: rest).flatten.length = first.length + 3 * rest.length := by
  rw [List.length_flatten, h.map_length, List.sum_cons, List.sum_replicate, smul_eq_mul,
    Nat.mul_comm]

section cons

variable {d : Char} (hd : d.isDigit)

include hd

theorem single : AreGroups [[d]] where
  ne_nil := List.cons_ne_nil _ _
  first := by simp
  others := by simp
  digits := by simpa using hd

/-- A digit in front of a full group begins another one. -/
theorem cons_full (h : AreGroups (first :: rest)) (hfull : first.length = 3) :
    AreGroups ([d] :: first :: rest) where
  ne_nil := List.cons_ne_nil _ _
  first := by simp
  others := List.forall_mem_cons.2 ⟨hfull, h.others⟩
  digits := List.forall_mem_cons.2 ⟨by simpa using hd, h.digits⟩

/-- A digit in front of any other group joins it. -/
theorem cons_room (h : AreGroups (first :: rest)) (hroom : first.length ≠ 3) :
    AreGroups ((d :: first) :: rest) where
  ne_nil := List.cons_ne_nil _ _
  first := by
    have hfirst := h.first first rfl
    simp only [List.head?_cons, Option.mem_some, forall_eq', List.length_cons]
    omega
  others := h.others
  digits := by
    obtain ⟨hfirst, hothers⟩ := List.forall_mem_cons.1 h.digits
    exact List.forall_mem_cons.2 ⟨List.forall_mem_cons.2 ⟨hd, hfirst⟩, hothers⟩

end cons

/-- **Digits fall into groups in one way.** Their number tells the length of the first group. -/
theorem eq_of_flatten (h : AreGroups groups) (h' : AreGroups groups')
    (heq : groups.flatten = groups'.flatten) : groups = groups' := by
  obtain ⟨first, rest, rfl⟩ := List.exists_cons_of_ne_nil h.ne_nil
  obtain ⟨first', rest', rfl⟩ := List.exists_cons_of_ne_nil h'.ne_nil
  have hlength := congrArg List.length heq
  rw [h.length_flatten, h'.length_flatten] at hlength
  have hbounds := h.first first rfl
  have hbounds' := h'.first first' rfl
  have hfirst : first.length = first'.length := by omega
  have hrest : rest.length = rest'.length := by omega
  refine List.eq_iff_flatten_eq.2 ⟨heq, ?_⟩
  rw [h.map_length, h'.map_length, hfirst, hrest]

end AreGroups

/-- **Digits are written in groups**, with commas between them. -/
theorem exists_groups {ds : List Char} (hne : ds ≠ []) (hds : ∀ c ∈ ds, c.isDigit) :
    ∃ groups, AreGroups groups ∧ groups.flatten = ds ∧
      groupDigits ds = [','].intercalate groups := by
  induction ds with
  | nil => exact absurd rfl hne
  | cons d ds ih =>
    obtain ⟨hd, hds⟩ := List.forall_mem_cons.1 hds
    by_cases hnil : ds = []
    · subst hnil
      exact ⟨[[d]], AreGroups.single hd, rfl, rfl⟩
    · obtain ⟨groups, hgroups, hflat, heq⟩ := ih hnil hds
      obtain ⟨first, rest, rfl⟩ := List.exists_cons_of_ne_nil hgroups.ne_nil
      have hlength : ds.length = first.length + 3 * rest.length := hflat ▸ hgroups.length_flatten
      have hbounds := hgroups.first first rfl
      -- By its bounds the first group is full exactly if `ds.length` is a multiple of three.
      by_cases hfull : first.length = 3
      · refine ⟨[d] :: first :: rest, hgroups.cons_full hd hfull, ?_, ?_⟩
        · rw [List.flatten_cons, hflat, List.singleton_append]
        · rw [groupDigits, if_pos ⟨hnil, by omega⟩, heq, List.intercalate_cons_cons]
          rfl
      · refine ⟨(d :: first) :: rest, hgroups.cons_room hd hfull, ?_, ?_⟩
        · rw [← hflat]
          rfl
        · rw [groupDigits, if_neg (by omega), heq]
          cases rest <;> simp

/-! ## Splitting at commas -/

theorem splitOn_append_cons (s t : List Char) :
    (s ++ ',' :: t).splitOn ',' = s.splitOn ',' ++ t.splitOn ',' :=
  List.splitOnP_append_cons s t rfl

/-- Splitting a text at its commas takes out the commas and nothing else. -/
theorem flatten_splitOn (s : List Char) : (s.splitOn ',').flatten = s.filter (· ≠ ',') := by
  induction s with
  | nil => rfl
  | cons c s ih =>
    rw [List.splitOn_eq_splitOnP] at ih ⊢
    rw [List.splitOnP_cons_eq_if_modifyHead]
    obtain ⟨g, gs, hgs⟩ := List.exists_cons_of_ne_nil (List.splitOnP_ne_nil (· == ',') s)
    rw [hgs] at ih ⊢
    by_cases hc : c = ',' <;> simpa [hc] using ih

/-- Where no group is empty, no comma stands at an end or next to another one. -/
theorem commas_apart {s : List Char} (h : [] ∉ s.splitOn ',') :
    s.head? ≠ some ',' ∧ s.getLast? ≠ some ',' ∧ ¬[',', ','] <:+: s := by
  refine ⟨fun hhead => h ?_, fun hlast => h ?_, fun hinfix => h ?_⟩
  · obtain ⟨t, rfl⟩ := List.head?_eq_some_iff.1 hhead
    exact splitOn_append_cons [] t ▸ List.mem_append_left _ List.mem_cons_self
  · obtain ⟨t, rfl⟩ := List.getLast?_eq_some_iff.1 hlast
    exact splitOn_append_cons t [] ▸ List.mem_append_right _ List.mem_cons_self
  · obtain ⟨s, t, rfl⟩ := hinfix
    have hnext : [] ∈ (',' :: t).splitOn ',' :=
      splitOn_append_cons [] t ▸ List.mem_append_left _ List.mem_cons_self
    rw [List.append_assoc, List.cons_append, splitOn_append_cons]
    exact List.mem_append_right _ hnext

/-! ## Counts -/

theorem splitOn_grouped (n : ℕ) :
    AreGroups ((grouped n).splitOn ',') ∧
      ((grouped n).splitOn ',').flatten = Nat.toDigits 10 n := by
  obtain ⟨groups, hgroups, hflat, heq⟩ :=
    exists_groups Nat.toDigits_ne_nil fun _ => isDigit_of_mem_toDigits (n := n)
  rw [grouped, heq, List.splitOn_intercalate ',' hgroups.comma_notMem hgroups.ne_nil]
  exact ⟨hgroups, hflat⟩

/-- **Digits without their commas.** -/
theorem filter_grouped (n : ℕ) : (grouped n).filter (· ≠ ',') = Nat.toDigits 10 n := by
  rw [← flatten_splitOn, (splitOn_grouped n).2]

/-- **Grouped counts differ if the counts do.** -/
theorem grouped_injective : Function.Injective grouped := by
  intro m n h
  have hdigits : Nat.toDigits 10 m = Nat.toDigits 10 n := by
    rw [← filter_grouped, h, filter_grouped]
  rw [← Nat.ofDigitChars_ten_toDigits (n := m), hdigits, Nat.ofDigitChars_ten_toDigits]

/-- **Digits and groups determine the text.** -/
theorem eq_grouped_iff {s : List Char} {n : ℕ} :
    s = grouped n ↔ s.filter (· ≠ ',') = Nat.toDigits 10 n ∧ AreGroups (s.splitOn ',') := by
  constructor
  · rintro rfl
    exact ⟨filter_grouped n, (splitOn_grouped n).1⟩
  · rintro ⟨hdigits, hgroups⟩
    have hsplit : s.splitOn ',' = (grouped n).splitOn ',' := by
      refine hgroups.eq_of_flatten (splitOn_grouped n).1 ?_
      rw [flatten_splitOn, hdigits, (splitOn_grouped n).2]
    calc s
      _ = [','].intercalate (s.splitOn ',') := (List.intercalate_splitOn ',').symm
      _ = [','].intercalate ((grouped n).splitOn ',') := congrArg _ hsplit
      _ = grouped n := List.intercalate_splitOn ','

/-- **Grouping is exact and can be undone.** A grouped count has the digits of the count, in groups
between its commas, of which none stands at an end or next to another one. There is no other text
like this, and no other count with this text. -/
theorem grouped_exact (n : ℕ) :
    (grouped n).filter (· ≠ ',') = Nat.toDigits 10 n ∧
    AreGroups ((grouped n).splitOn ',') ∧
    ((grouped n).head? ≠ some ',' ∧ (grouped n).getLast? ≠ some ',' ∧
      ¬[',', ','] <:+: grouped n) ∧
    (grouped n).length =
      (Nat.toDigits 10 n).length + ((Nat.toDigits 10 n).length - 1) / 3 ∧
    (∀ s, s = grouped n ↔
      s.filter (· ≠ ',') = Nat.toDigits 10 n ∧ AreGroups (s.splitOn ',')) ∧
    ∀ m, grouped m = grouped n ↔ m = n := by
  have hgroups := (splitOn_grouped n).1
  exact ⟨filter_grouped n, hgroups, commas_apart hgroups.nil_notMem, length_groupDigits _,
    fun _ => eq_grouped_iff, fun _ => grouped_injective.eq_iff⟩

/-- The largest count of 64 bits has twenty digits. -/
example : grouped (2 ^ 64 - 1) = "18,446,744,073,709,551,615".toList := by decide

end GeoPartition.Text
