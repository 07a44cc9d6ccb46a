import GeoPartition.Proofs.Json.Grammar

/-!
# Documents within documents

**Theorem (`spells_of_document`).** A text that is read as a document without a fault spells its
value: it is read as that value wherever it stands within another text.

The tokens of a text do not depend on what follows it, as long as none of them is broken
(`hasTokens_of_sound`): a string ends at its quote, a word at its last letter, and a number where no
number goes on. And what is read from the tokens of a text is read from them wherever they stand.
-/

namespace GeoPartition.Json

open Text (splitDigits splitSign)

/-! ## Tokens -/

theorem splitDigits_append_right (s : List Char) {rest : List Char}
    (h : ∀ c ∈ rest.head?, c.isDigit = false) :
    splitDigits (s ++ rest) = ((splitDigits s).1, (splitDigits s).2 ++ rest) := by
  induction s with
  | nil =>
    have hnil : ∀ c ∈ ([] : List Char), c.isDigit := nofun
    exact Text.splitDigits_append hnil h
  | cons c s ih =>
    simp only [splitDigits, Prod.mk.injEq] at ih
    by_cases hc : c.isDigit
    · simp [splitDigits, hc, ih.1, ih.2]
    · simp [splitDigits, hc]

theorem splitSign_append_right {s : List Char} (hs : s ≠ []) (rest : List Char) :
    splitSign (s ++ rest) = ((splitSign s).1, (splitSign s).2 ++ rest) := by
  obtain ⟨c, s, rfl⟩ := List.exists_cons_of_ne_nil hs
  rw [List.cons_append]
  unfold splitSign
  split <;> simp_all

/-- The first character of a text, with another behind it. -/
theorem head?_append_right {P : Char → Prop} {s rest : List Char} (hs : ∀ c ∈ s.head?, P c)
    (hrest : ∀ c ∈ rest.head?, P c) : ∀ c ∈ (s ++ rest).head?, P c := by
  cases s with
  | nil => exact hrest
  | cons c s => exact hs

section

variable {s rest more : List Char} {t : Token} (ht : t.IsSound) {negative : Bool}
  {whole : List Char}

theorem scanExponent_of_ne {fraction : List Char} {integral : Bool}
    (h : ∀ c ∈ s.head?, c ≠ 'e' ∧ c ≠ 'E') : scanExponent negative whole fraction integral s =
      (.number ⟨negative, whole, fraction, 0, integral⟩, s) := by
  cases s with
  | nil => rfl
  | cons c s => simp [scanExponent, h c rfl]

theorem scanFraction_of_ne (h : ∀ c ∈ s.head?, c ≠ '.') :
    scanFraction negative whole s = scanExponent negative whole [] true s := by
  cases s with
  | nil => rfl
  | cons c s => simp [scanFraction, h c rfl]

include ht

theorem scanExponent_append {fraction : List Char} {integral : Bool}
    (h : scanExponent negative whole fraction integral s = (t, rest)) (hmore : Stops more) :
    scanExponent negative whole fraction integral (s ++ more) = (t, rest ++ more) := by
  have hdigit : ∀ c ∈ more.head?, c.isDigit = false := fun c hc => (hmore c hc).1
  by_cases hmark : ∀ c ∈ s.head?, c ≠ 'e' ∧ c ≠ 'E'
  · rw [scanExponent_of_ne hmark] at h
    cases h
    exact scanExponent_of_ne (head?_append_right hmark fun c hc => (hmore c hc).2.2)
  · obtain ⟨c, u, rfl, hc⟩ : ∃ c u, s = c :: u ∧ (c = 'e' ∨ c = 'E') := by
      cases s with
      | nil => simp at hmark
      | cons c u => exact ⟨c, u, rfl, by simpa [or_iff_not_imp_left] using hmark⟩
    by_cases hnone : (splitDigits (splitSign u).2).1 = []
    · rcases hc with rfl | rfl
      all_goals
        simp only [scanExponent, if_pos hnone] at h
        cases h
        exact ht.elim
    · have hne : u ≠ [] := by
        rintro rfl
        exact hnone rfl
      have hdigits : splitDigits (splitSign (u ++ more)).2 =
          ((splitDigits (splitSign u).2).1, (splitDigits (splitSign u).2).2 ++ more) := by
        rw [splitSign_append_right hne, splitDigits_append_right _ hdigit]
      have hsign : (splitSign (u ++ more)).1 = (splitSign u).1 := by
        rw [splitSign_append_right hne]
      rcases hc with rfl | rfl
      all_goals
        simp only [scanExponent, List.cons_append, if_neg hnone] at h ⊢
        cases h
        rw [hdigits, hsign, if_neg hnone]

theorem scanFraction_append (h : scanFraction negative whole s = (t, rest)) (hmore : Stops more) :
    scanFraction negative whole (s ++ more) = (t, rest ++ more) := by
  have hdigit : ∀ c ∈ more.head?, c.isDigit = false := fun c hc => (hmore c hc).1
  by_cases hmark : ∀ c ∈ s.head?, c ≠ '.'
  · rw [scanFraction_of_ne hmark] at h
    rw [scanFraction_of_ne (head?_append_right hmark fun c hc => (hmore c hc).2.1)]
    exact scanExponent_append ht h hmore
  · obtain ⟨u, rfl⟩ : ∃ u, s = '.' :: u := by
      cases s with
      | nil => simp at hmark
      | cons c s => simpa using hmark
    simp only [scanFraction, List.cons_append, splitDigits_append_right _ hdigit] at h ⊢
    split_ifs at h ⊢ with hnone
    · cases h
      exact ht.elim
    · exact scanExponent_append ht h hmore

theorem scanNumber_append (h : scanNumber negative s = (t, rest)) (hmore : Stops more) :
    scanNumber negative (s ++ more) = (t, rest ++ more) := by
  have hdigit : ∀ c ∈ more.head?, c.isDigit = false := fun c hc => (hmore c hc).1
  unfold scanNumber at h ⊢
  rw [splitDigits_append_right s hdigit]
  dsimp only at h ⊢
  split_ifs at h ⊢ with hnone hzero
  · cases h
    exact ht.elim
  · cases h
    exact ht.elim
  · exact scanFraction_append ht h hmore

theorem scanWord_append {token : Token} {expected : List Char}
    (h : scanWord token expected s = (t, rest)) (more : List Char) :
    scanWord token expected (s ++ more) = (t, rest ++ more) := by
  induction expected generalizing s with
  | nil =>
    cases h
    rfl
  | cons e expected ih =>
    cases s with
    | nil =>
      cases h
      exact ht.elim
    | cons c s =>
      simp only [scanWord, List.cons_append] at h ⊢
      split_ifs at h ⊢ with hc
      · exact ih h
      · cases h
        exact ht.elim

/-- **A token does not depend on what follows it**, if it is not broken. -/
theorem scanToken_append {c : Char} (h : scanToken c s = (t, rest)) (hmore : Stops more) :
    scanToken c (s ++ more) = (t, rest ++ more) := by
  unfold scanToken at h ⊢
  split at h
  iterate 6
    next =>
      cases h
      rfl
  · rcases hscan : scanString s with ⟨l, left⟩
    rw [hscan] at h
    cases h
    obtain ⟨body, hbody, rfl⟩ := exists_isBody hscan ht
    rw [List.append_assoc, List.cons_append, hbody.scanString]
  iterate 3 exact scanWord_append ht h more
  · exact scanNumber_append ht h hmore
  · split_ifs at h with hdigit
    · have hnumber := scanNumber_append ht h hmore
      rw [List.cons_append] at hnumber
      simp only [hdigit, if_true]
      exact hnumber
    · cases h
      exact ht.elim

end

/-- **The tokens of a text** do not depend on what follows it, if none of them is broken. -/
theorem hasTokens_of_sound {s : List Char} (h : ∀ t ∈ tokens s, t.IsSound) :
    HasTokens s (tokens s) := by
  intro more hmore
  induction s using tokens.induct with
  | case1 => rw [tokens]; rfl
  | case2 c s hc ih =>
    rw [tokens_blank hc] at h ⊢
    rw [List.cons_append, tokens_blank hc, ih h]
  | case3 c s hc ih =>
    have hblank : isBlank c = false := by simpa using hc
    rw [tokens_cons hblank] at h ⊢
    obtain ⟨ht, hrest⟩ := List.forall_mem_cons.1 h
    have hscan : scanToken c (s ++ more) = ((scanToken c s).1, (scanToken c s).2 ++ more) :=
      scanToken_append ht rfl hmore
    rw [List.cons_append, tokens_cons hblank, hscan, ih hrest]
    rfl

/-- **Documents within documents**: what is read as a document without a fault is read as the same
value within another text. -/
theorem spells_of_document {s : List Char} {d : Draft} (h : Document.ofText s = ⟨d, .ok ()⟩)
    (hskip : d.skip = .ok ()) : Spells s d := by
  unfold Document.ofText at h
  rcases hvalue : Draft.value (2 * (tokens s).length + 1) (tokens s) with ⟨root, rest⟩
  simp only [hvalue, Document.mk.injEq] at h
  obtain ⟨rfl, hrest⟩ := h
  obtain rfl : rest = [] := by
    by_contra hne
    rw [if_neg hne] at hrest
    cases hrest
  obtain ⟨used, hused, hsound, hyields⟩ := yields_of_value hvalue hskip
  rw [List.append_nil] at hused
  exact ⟨used, hused ▸ hasTokens_of_sound (hused ▸ hsound), hyields⟩

end GeoPartition.Json
