import GeoPartition.Proofs.Toml.Layout

/-!
# Limits of TOML documents

Arrays may stand within arrays up to a depth, and keys have as many parts at most. A document whose
first line goes beyond is not read, whatever follows (`ofText?_nested`, `ofText?_long`).

Each bracket takes one of the levels that are left, so the first is an induction on the levels, down
to a bracket where a single value is due.
-/

namespace GeoPartition.Toml

/-- A document is not read if its first line is not. -/
theorem ofText?_eq_none {s : List Char} {c : Char} {t : List Char} (hs : s = c :: t)
    (hc : opensKey c) (h : statement? s = none) : ofText? s = none := by
  subst hs
  rw [ofText?_eq, Progress.run, if_neg, h]
  · rfl
  · rw [skipBlanks_cons (isBlank_of_opensKey hc)]
    exact List.cons_ne_nil _ _
  · rw [List.head?_cons]
    rintro _ ⟨⟩
    simp [opensLine, hc]

/-! ## Arrays within arrays -/

/-- An empty array within `n` others. -/
def nested : ℕ → List Char
  | 0 => ['[', ']']
  | n + 1 => '[' :: (nested n ++ [']'])

theorem exists_cons_nested (n : ℕ) : ∃ s, nested n = '[' :: s := by
  cases n <;> exact ⟨_, rfl⟩

theorem isValue_nested (n : ℕ) : IsValue (n + 1) (nested n) := by
  induction n with
  | zero =>
    have harray : IsArray ('[' :: ([] ++ ([] ++ [']']))) [] := .mk .nil .empty
    exact .array harray nofun
  | succ n ih =>
    have harray : IsArray ('[' :: ([] ++ (nested n ++ [] ++ [']']))) [nested n] :=
      .mk .nil (.last .nil)
    rw [List.nil_append, List.append_nil] at harray
    exact .array harray (by simpa using ih)

theorem items?_eq_none {n depth : ℕ} {s : List Char} (h : value? n depth ('[' :: s) = none) :
    items? (n + 1) depth ('[' :: s) = none := by
  rw [items?]
  · simp [h]
  · simp

/-- **Deeper arrays are not read**, whatever follows. -/
theorem value?_nested_eq_none {n depth : ℕ} (hdepth : depth ≤ n) (fuel : ℕ) (rest : List Char) :
    value? fuel depth (nested n ++ rest) = none := by
  induction depth generalizing n fuel rest with
  | zero =>
    obtain ⟨s, hs⟩ := exists_cons_nested n
    cases fuel with
    | zero => rfl
    | succ fuel =>
      rw [hs, List.cons_append, value?]
      · exact scalar?_eq_none (by simp) _
      · simp
      · simp
  | succ depth ih =>
    obtain ⟨n, rfl⟩ := Nat.exists_eq_add_of_le' (Nat.one_le_of_lt hdepth)
    obtain ⟨s, hs⟩ := exists_cons_nested n
    have hbegins (rest : List Char) : skipLines false ('[' :: rest) = '[' :: rest :=
      skipLines_cons (by simp) rest
    cases fuel with
    | zero => rfl
    | succ fuel =>
      have hinner (fuel : ℕ) := ih (Nat.le_of_succ_le_succ hdepth) fuel (']' :: rest)
      rw [nested, List.cons_append, List.append_assoc, List.singleton_append, value?]
      rw [hs, List.cons_append] at hinner ⊢
      rw [hbegins]
      cases fuel with
      | zero => rfl
      | succ fuel =>
        rw [items?_eq_none (hinner fuel)]
        rfl

/-- **A document that nests too deep** is not read. -/
theorem ofText?_nested {k b b' : List Char} {key : List String} (hk : IsKey k key)
    (hkey : key.length ≤ maxDepth) (hb : IsBlanks b) (hb' : IsBlanks b') {n : ℕ}
    (h : maxDepth ≤ n) (rest : List Char) :
    ofText? (k ++ (b ++ '=' :: (b' ++ (nested n ++ rest)))) = none := by
  have hvalue (fuel : ℕ) :
      value? fuel maxDepth (skipBlanks (b' ++ (nested n ++ rest))) = none := by
    obtain ⟨s, hs⟩ := exists_cons_nested n
    have hnone := value?_nested_eq_none h fuel rest
    rw [hs, List.cons_append] at hnone ⊢
    rwa [skipBlanks_append hb', skipBlanks_cons (by decide)]
  have hline := statement?_eq_none_of_value isBlanks_nil hk hb hkey hvalue
  obtain ⟨c, t, rfl, hc⟩ := hk.exists_cons
  exact ofText?_eq_none rfl hc hline

/-! ## Parts of keys -/

/-- **A document with a key of too many parts** is not read. -/
theorem ofText?_long {k : List Char} {key : List String} (hk : IsKey k key)
    (hkey : maxDepth < key.length) (s : List Char) : ofText? (k ++ s) = none := by
  have hline := statement?_eq_none_of_key isBlanks_nil hk hkey s
  obtain ⟨c, t, rfl, hc⟩ := hk.exists_cons
  exact ofText?_eq_none rfl hc hline

/-- A key of `n + 1` times the same letter. -/
def dotted : ℕ → List Char
  | 0 => ['a']
  | n + 1 => 'a' :: '.' :: dotted n

theorem isKey_dotted (n : ℕ) : IsKey (dotted n) (List.replicate (n + 1) "a") := by
  have hbare : IsBare "a".toList := ⟨by simp, List.all_eq_true.1 rfl⟩
  induction n with
  | zero => exact .part (.bare hbare)
  | succ n ih => exact .dotted (.bare hbare) isBlanks_nil isBlanks_nil ih

end GeoPartition.Toml
