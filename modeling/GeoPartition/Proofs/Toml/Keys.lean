import GeoPartition.Proofs.Toml.Strings

/-!
# Keys of TOML

A key is one or more parts with points between them, and each part is bare or a string on one line.

**Theorem (`key?_append`).** Every key is read as its parts, if these are not more than the reader
takes, with blanks around the key and around its points. A key with more parts is not read
(`key?_eq_none`).
-/

namespace GeoPartition.Toml

/-! ## Parts -/

/-- A key that needs no quotes. -/
def IsBare (key : List Char) : Prop := key ≠ [] ∧ ∀ c ∈ key, isBareKeyChar c

/-- A part of a key as it is written: bare, or a string on one line. -/
inductive IsPart : List Char → String → Prop
  | bare {key : String} (h : IsBare key.toList) : IsPart key.toList key
  | basic {s t : List Char} (h : IsBasic s t) : IsPart ('"' :: (s ++ ['"'])) (String.ofList t)
  | literal {s : List Char} (h : IsLiteral s) : IsPart ('\'' :: (s ++ ['\''])) (String.ofList s)

/-- Does a key begin with a character? -/
def opensKey (c : Char) : Bool := isBareKeyChar c || c = '"' || c = '\''

theorem isBlank_of_opensKey {c : Char} (hc : opensKey c) : isBlank c = false := by
  simp [isBlank, Text.ne_of_class hc (show opensKey ' ' = false by decide),
    Text.ne_of_class hc (show opensKey '\t' = false by decide)]

theorem isBlank_of_isBareKeyChar {c : Char} (hc : isBareKeyChar c) : isBlank c = false :=
  isBlank_of_opensKey (by simp [opensKey, hc])

theorem IsBare.exists_cons {key : List Char} (h : IsBare key) :
    ∃ c s, key = c :: s ∧ isBareKeyChar c := by
  obtain ⟨c, s, rfl⟩ := List.exists_cons_of_ne_nil h.1
  exact ⟨c, s, rfl, h.2 c List.mem_cons_self⟩

theorem IsPart.exists_cons {q : List Char} {key : String} (h : IsPart q key) :
    ∃ c s, q = c :: s ∧ opensKey c := by
  cases h with
  | bare h =>
    obtain ⟨c, s, hs, hc⟩ := h.exists_cons
    exact ⟨c, s, hs, by simp [opensKey, hc]⟩
  | basic _ => exact ⟨_, _, rfl, rfl⟩
  | literal _ => exact ⟨_, _, rfl, rfl⟩

theorem keyPart?_bare {key : List Char} (h : IsBare key) {d : Char} (hd : isBareKeyChar d = false)
    (s : List Char) : keyPart? (key ++ d :: s) = some (key, d :: s) := by
  have htake : (key ++ d :: s).takeWhile isBareKeyChar = key := by
    simp [List.takeWhile_append_of_pos h.2, hd]
  have hdrop : (key ++ d :: s).dropWhile isBareKeyChar = d :: s := by
    simp [List.dropWhile_append_of_pos h.2, hd]
  obtain ⟨c, t, hkey, hc⟩ := h.exists_cons
  unfold keyPart?
  split
  iterate 2
    next hquote =>
      rw [hkey] at hquote
      exact absurd hquote (Text.cons_ne_cons_of_class hc (by decide) _ _)
  rw [htake, hdrop, if_neg h.1]

/-- A part ends in front of a character that no bare key has. -/
theorem IsPart.keyPart? {q : List Char} {key : String} (h : IsPart q key) {d : Char}
    (hd : isBareKeyChar d = false) (s : List Char) :
    keyPart? (q ++ d :: s) = some (key.toList, d :: s) := by
  cases h with
  | bare h => exact keyPart?_bare h hd s
  | basic h => simpa [Toml.keyPart?] using basicString?_append h (d :: s)
  | literal h => simpa [Toml.keyPart?] using literalString?_append h (d :: s)

/-- A part with blanks around it, in front of a point or of what ends a key. -/
theorem IsPart.keyPart?_blanks {q b b' : List Char} {key : String} (h : IsPart q key)
    (hb : IsBlanks b) (hb' : IsBlanks b') {d : Char} (hd : d ∈ ['.', '=', ']']) (s : List Char) :
    Toml.keyPart? (skipBlanks (b ++ (q ++ (b' ++ d :: s)))) = some (key.toList, b' ++ d :: s) ∧
      skipBlanks (b' ++ d :: s) = d :: s := by
  obtain ⟨hbare, hblank⟩ : isBareKeyChar d = false ∧ isBlank d = false := by
    simp only [List.mem_cons, List.not_mem_nil, or_false] at hd
    rcases hd with rfl | rfl | rfl <;> exact ⟨rfl, rfl⟩
  obtain ⟨c, t, hcons, hc⟩ := h.exists_cons
  have hskip : skipBlanks (b ++ (q ++ (b' ++ d :: s))) = q ++ (b' ++ d :: s) := by
    rw [skipBlanks_append hb, hcons]
    exact skipBlanks_cons (isBlank_of_opensKey hc) _
  rw [hskip, skipBlanks_append hb', skipBlanks_cons hblank]
  refine ⟨?_, rfl⟩
  cases b' with
  | nil => exact h.keyPart? hbare s
  | cons e b' =>
    refine h.keyPart? ?_ _
    by_contra he
    rw [Bool.not_eq_false] at he
    have hblank := hb' e List.mem_cons_self
    rw [isBlank_of_isBareKeyChar he] at hblank
    cases hblank

/-! ## Keys -/

/-- A key as it is written, and its parts. -/
inductive IsKey : List Char → List String → Prop
  | part {q : List Char} {key : String} (hq : IsPart q key) : IsKey q [key]
  | dotted {q b b' k : List Char} {key : String} {keys : List String} (hq : IsPart q key)
      (hb : IsBlanks b) (hb' : IsBlanks b') (hk : IsKey k keys) :
      IsKey (q ++ (b ++ '.' :: (b' ++ k))) (key :: keys)

theorem IsKey.exists_cons {k : List Char} {keys : List String} (h : IsKey k keys) :
    ∃ c s, k = c :: s ∧ opensKey c := by
  cases h with
  | part hq => exact hq.exists_cons
  | dotted hq _ _ _ =>
    obtain ⟨c, s, rfl, hc⟩ := hq.exists_cons
    exact ⟨c, _, rfl, hc⟩

theorem IsKey.ne_nil {k : List Char} {keys : List String} (h : IsKey k keys) : keys ≠ [] := by
  cases h <;> exact List.cons_ne_nil _ _

/-- **Keys** are read up to what ends them. -/
theorem key?_append {k b b' : List Char} {keys : List String} (hk : IsKey k keys)
    (hb : IsBlanks b) (hb' : IsBlanks b') {d : Char} (hd : d ∈ ['=', ']']) {parts : ℕ}
    (hparts : keys.length ≤ parts) (s : List Char) :
    key? parts (b ++ (k ++ (b' ++ d :: s))) = some (keys, d :: s) := by
  have hpoint : d ≠ '.' := by
    rintro rfl
    simp at hd
  induction hk generalizing b parts with
  | @part q key hq =>
    obtain ⟨parts, rfl⟩ := Nat.exists_eq_add_of_le' hparts
    obtain ⟨hpart, hskip⟩ := hq.keyPart?_blanks hb hb' (List.mem_cons_of_mem _ hd) s
    simp [key?, hpart, hskip, hpoint]
  | @dotted q b₁ b₂ k key keys hq hb₁ hb₂ _ ih =>
    obtain ⟨parts, rfl⟩ := Nat.exists_eq_add_of_le' (Nat.one_le_of_lt hparts)
    obtain ⟨hpart, hskip⟩ := hq.keyPart?_blanks hb hb₁ (d := '.') (by simp)
      (b₂ ++ (k ++ (b' ++ d :: s)))
    have hrest := ih hb₂ (Nat.le_of_succ_le_succ hparts)
    simp [key?, hpart, hskip, hrest]

/-- **Keys of too many parts** are not read. -/
theorem key?_eq_none {k b : List Char} {keys : List String} (hk : IsKey k keys) (hb : IsBlanks b)
    {parts : ℕ} (hparts : parts < keys.length) (s : List Char) :
    key? parts (b ++ (k ++ s)) = none := by
  induction hk generalizing b parts with
  | part _ =>
    obtain rfl : parts = 0 := by simpa using hparts
    rfl
  | @dotted q b₁ b₂ k key keys hq hb₁ hb₂ _ ih =>
    cases parts with
    | zero => rfl
    | succ parts =>
      obtain ⟨hpart, hskip⟩ := hq.keyPart?_blanks hb hb₁ (d := '.') (by simp) (b₂ ++ (k ++ s))
      have hrest := ih hb₂ (Nat.lt_of_succ_lt_succ hparts)
      simp [key?, hpart, hskip, hrest]

end GeoPartition.Toml
