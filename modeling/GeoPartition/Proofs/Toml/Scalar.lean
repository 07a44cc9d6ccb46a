import GeoPartition.Proofs.Toml.Number
import GeoPartition.Proofs.Toml.Strings
import GeoPartition.Toml.Nested

/-!
# Single values of TOML

A text spells a value if it is read as that value wherever a value is due, and nothing behind it is
used up. Strings, integers, floats, booleans, dates and times spell values (`IsScalar.spells`), and
no value begins with what stands between values or behind them (`Spells.exists_cons`).

What is neither a word nor a string is tried as a date or a time, then as a float, then as an
integer, so the readings that come first are refuted for those that come later.
-/

namespace GeoPartition.Toml

/-- A text is read as a value where one is due that may nest `n` levels. -/
def Spells (n : ℕ) (s : List Char) (v : Value) : Prop :=
  ∀ depth fuel rest, n ≤ depth → 2 * s.length ≤ fuel → Ends rest →
    value? fuel depth (s ++ rest) = some (v, rest)

theorem ends_nil : Ends [] := nofun

theorem Spells.unique {m n : ℕ} {s : List Char} {v w : Value} (hv : Spells m s v)
    (hw : Spells n s w) : v = w := by
  have hleft := hv (max m n) (2 * s.length) [] (Nat.le_max_left m n) le_rfl ends_nil
  have hright := hw (max m n) (2 * s.length) [] (Nat.le_max_right m n) le_rfl ends_nil
  simpa using hleft.symm.trans hright

theorem Spells.mono {m n : ℕ} (h : m ≤ n) {s : List Char} {v : Value} (hv : Spells m s v) :
    Spells n s v :=
  fun depth fuel rest hdepth hfuel hrest => hv depth fuel rest (h.trans hdepth) hfuel hrest

/-- A value that does not begin with a bracket is a scalar. -/
theorem value?_cons {c : Char} (harray : c ≠ '[') (htable : c ≠ '\x7b') (n depth : ℕ)
    (s : List Char) : value? (n + 1) depth (c :: s) = scalar? (c :: s) := by
  rw [value?]
  · simp [harray]
  · simp [htable]

theorem spells_scalar {s : List Char} {v : Value}
    (hs : ∃ c t, s = c :: t ∧ c ≠ '[' ∧ c ≠ '\x7b')
    (h : ∀ rest, Ends rest → scalar? (s ++ rest) = some (v, rest)) : Spells 0 s v := by
  intro depth fuel rest _ hfuel hrest
  obtain ⟨c, t, rfl, harray, htable⟩ := hs
  obtain ⟨fuel, rfl⟩ := Nat.exists_eq_add_of_le' (Nat.one_le_of_lt hfuel)
  rw [List.cons_append, value?_cons harray htable]
  exact h rest hrest

/-! ## Numbers, dates and times -/

/-- A date or a time, a float, or an integer. -/
def numeral? (s : List Char) : Option (Value × List Char) :=
  ((dateTime? s).map fun s => (.dateTime, s))
    <|> ((decimalFloat? s).map fun r => (.float r.1, r.2))
    <|> ((wordFloat? s).map fun r => (.float r.1, r.2))
    <|> ((integer? s).map fun r => (.integer r.1, r.2))

/-- Does a number, a date or a time begin with a character? -/
def opensNumeral (c : Char) : Bool := c.isDigit || c ∈ ['+', '-', 'i', 'n']

/-- What begins like a number, a date or a time is one of these. -/
theorem scalar?_cons {c : Char} (hc : c ∉ ['t', 'f', '"', '\'']) (s : List Char) :
    scalar? (c :: s) = numeral? (c :: s) := by
  simp only [List.mem_cons, List.not_mem_nil, or_false, not_or] at hc
  obtain ⟨ht, hf, hdouble, hsingle⟩ := hc
  unfold scalar?
  split
  · next h => exact absurd (List.cons.inj h).1 ht
  · next h => exact absurd (List.cons.inj h).1 hf
  · next h => exact absurd (List.cons.inj h).1 hdouble
  · next h => exact absurd (List.cons.inj h).1 hsingle
  · rfl

theorem spells_numeral {s : List Char} {v : Value} (hs : ∃ c t, s = c :: t ∧ opensNumeral c)
    (h : ∀ rest, Ends rest → numeral? (s ++ rest) = some (v, rest)) : Spells 0 s v := by
  obtain ⟨c, t, rfl, hc⟩ := hs
  have hne {d : Char} (hd : opensNumeral d = false) : c ≠ d := Text.ne_of_class hc hd
  refine spells_scalar ⟨c, t, rfl, hne (by decide), hne (by decide)⟩ fun rest hrest => ?_
  rw [← h rest hrest, List.cons_append]
  refine scalar?_cons ?_ _
  simp [hne (d := 't') (by decide), hne (d := 'f') (by decide), hne (d := '"') (by decide),
    hne (d := '\'') (by decide)]

theorem opensNumeral_of_isDigit {c : Char} (h : c.isDigit) : opensNumeral c := by
  simp [opensNumeral, h]

theorem IsSign.exists_cons {sign s : List Char} (h : IsSign sign)
    (hs : ∃ c t, s = c :: t ∧ opensNumeral c) : ∃ c t, sign ++ s = c :: t ∧ opensNumeral c := by
  cases h with
  | absent => exact hs
  | plus | minus => exact ⟨_, _, rfl, rfl⟩

theorem IsRun.exists_opens {s ds : List Char} (h : IsRun Char.isDigit s ds) (t : List Char) :
    ∃ c u, s ++ t = c :: u ∧ opensNumeral c := by
  obtain ⟨c, u, us, rfl, -, hc⟩ := h.exists_cons
  exact ⟨c, u ++ t, rfl, opensNumeral_of_isDigit hc⟩

theorem IsFixed.exists_opens {n low high : ℕ} {s : List Char} (h : IsFixed (n + 1) low high s)
    (t : List Char) : ∃ c u, s ++ t = c :: u ∧ opensNumeral c := by
  cases s with
  | nil => cases h.length
  | cons c s => exact ⟨c, s ++ t, rfl, opensNumeral_of_isDigit (h.digits c List.mem_cons_self)⟩

theorem IsDateTime.exists_opens {s : List Char} (h : IsDateTime s) :
    ∃ c t, s = c :: t ∧ opensNumeral c := by
  have hdate {s : List Char} (h : IsDate s) (t : List Char) :
      ∃ c u, s ++ t = c :: u ∧ opensNumeral c := by
    obtain @⟨_, _, _, hyear, -, -⟩ := h
    rw [List.append_assoc]
    exact hyear.exists_opens _
  cases h with
  | date h => simpa using hdate h []
  | both hd _ _ | withOffset hd _ _ _ => exact hdate hd _
  | time h =>
    obtain @⟨_, _, _, _, hhour, -, -, -⟩ := h
    exact hhour.exists_opens _

/-- **Dates and times** are read. -/
theorem IsDateTime.spells {s : List Char} (h : IsDateTime s) : Spells 0 s .dateTime := by
  refine spells_numeral h.exists_opens fun rest hrest => ?_
  rw [numeral?, h.dateTime? hrest]
  rfl

/-- **Integers** are read as what they stand for. -/
theorem IsInteger.spells {s : List Char} {n : ℤ} (h : IsInteger s n) :
    Spells 0 s (.integer n) := by
  have hread : ∀ rest, Ends rest → Toml.integer? (s ++ rest) = some (n, rest) :=
    fun rest hrest => h.integer? hrest
  cases h with
  | @decimal sign s ds hsign hs _ _ =>
    have hopens := hsign.exists_cons (by simpa using hs.run.exists_opens [])
    refine spells_numeral hopens fun rest hrest => ?_
    have hdate : ∀ c ∈ rest.head?, c.isDigit = false ∧ c ≠ '-' ∧ c ≠ ':' := by
      intro c hc
      have hclass := hrest.head? (p := fun c => c.isDigit || c ∈ ['-', ':']) (by decide) c hc
      simpa using hclass
    have hinteger := hread rest hrest
    rw [List.append_assoc] at hinteger ⊢
    rw [numeral?, dateTime?_number hsign hs hdate, decimalFloat?_integer hsign hs hrest,
      wordFloat?_number hsign hs.run, hinteger]
    rfl
  | @inBase letter base s ds hbase _ _ =>
    refine spells_numeral ⟨'0', _, rfl, rfl⟩ fun rest hrest => ?_
    have hinteger := hread rest hrest
    simp only [List.mem_cons, List.not_mem_nil, or_false, Prod.mk.injEq] at hbase
    have hdate : Toml.dateTime? ('0' :: letter :: s ++ rest) = none := by
      refine dateTime?_of_digits ?_
      rcases hbase with ⟨rfl, -⟩ | ⟨rfl, -⟩ | ⟨rfl, -⟩ <;> simp
    have hfloat : decimalFloat? ('0' :: letter :: s ++ rest) = none := by
      rcases hbase with ⟨rfl, -⟩ | ⟨rfl, -⟩ | ⟨rfl, -⟩ <;> rfl
    rw [numeral?, hdate, hfloat, hinteger]
    rfl

/-- **Floats** are read. -/
theorem IsFloat.spells {s : List Char} (h : IsFloat s) : ∃ x, Spells 0 s (.float x) := by
  cases h with
  | @decimal sign s ds tail fs x hsign hs htail hfinite =>
    refine ⟨(Decimal.ofParts (isMinus sign) ds fs x).toBinary64, ?_⟩
    refine spells_numeral (hsign.exists_cons (hs.run.exists_opens tail)) fun rest hrest => ?_
    have hdate : ∀ c ∈ (tail ++ rest).head?, c.isDigit = false ∧ c ≠ '-' ∧ c ≠ ':' := by
      obtain ⟨c, t, rfl, hc⟩ := htail.exists_cons
      intro d hd
      obtain rfl := Option.some.inj hd
      rcases hc with rfl | rfl | rfl <;> decide
    have hfloat := decimalFloat?_append hrest hsign hs htail hfinite
    rw [List.append_assoc, List.append_assoc, numeral?, dateTime?_number hsign hs hdate, hfloat]
    rfl
  | @word sign w hsign hw =>
    have hopens : ∃ c t, w = c :: t ∧ opensNumeral c := by
      rcases hw with rfl | rfl <;> exact ⟨_, _, rfl, rfl⟩
    have hdigit : ∀ s, ∀ c ∈ (sign ++ (w ++ s)).head?, c.isDigit = false := by
      intro s c hc
      rcases hw with rfl | rfl <;> cases hsign <;> obtain rfl := Option.some.inj hc <;> rfl
    have hfloat : ∀ s, decimalFloat? (sign ++ (w ++ s)) = none := by
      intro s
      rcases hw with rfl | rfl <;> cases hsign <;> rfl
    obtain ⟨x, hx⟩ : ∃ x, ∀ s, wordFloat? (sign ++ (w ++ s)) = some (x, s) := by
      rcases hw with rfl | rfl
      · exact ⟨.signed (isMinus sign) .infinite, fun s => by cases hsign <;> rfl⟩
      · exact ⟨.nan, fun s => by cases hsign <;> rfl⟩
    refine ⟨x, spells_numeral (hsign.exists_cons hopens) fun rest _ => ?_⟩
    rw [List.append_assoc, numeral?, dateTime?_of_head (hdigit rest), hfloat, hx]
    rfl

/-! ## Words and strings -/

/-- A truth value in a word. -/
inductive IsBoolean : List Char → Bool → Prop
  | true : IsBoolean ['t', 'r', 'u', 'e'] .true
  | false : IsBoolean ['f', 'a', 'l', 's', 'e'] .false

theorem IsBoolean.spells {s : List Char} {b : Bool} (h : IsBoolean s b) :
    Spells 0 s (.boolean b) := by
  cases h with
  | true => exact spells_scalar ⟨_, _, rfl, by decide, by decide⟩ fun _ _ => rfl
  | false => exact spells_scalar ⟨_, _, rfl, by decide, by decide⟩ fun _ _ => rfl

/-- **Strings** are read. -/
theorem IsString.spells {s : List Char} (h : IsString s) : ∃ t, Spells 0 s (.string t) := by
  obtain ⟨t, ht⟩ := h.string?
  obtain ⟨c, u, rfl, hc⟩ : ∃ c u, s = c :: u ∧ (c = '"' ∨ c = '\'') := by
    cases h with
    | basic _ => exact ⟨_, _, rfl, .inl rfl⟩
    | literal _ => exact ⟨_, _, rfl, .inr rfl⟩
    | basicLines h =>
      obtain ⟨-, -⟩ := h
      exact ⟨_, _, rfl, .inl rfl⟩
    | literalLines h =>
      obtain ⟨-, -⟩ := h
      exact ⟨_, _, rfl, .inr rfl⟩
  refine ⟨String.ofList t, spells_scalar ⟨c, u, rfl, ?_⟩ fun rest hrest => ?_⟩
  · rcases hc with rfl | rfl <;> decide
  · have hquote := hrest.head? (p := (· ∈ ['"', '\''])) (by decide)
    have hread := ht rest (fun h => absurd (hquote _ h) (by decide))
      fun h => absurd (hquote _ h) (by decide)
    have hscalar : scalar? (c :: u ++ rest) =
        (Toml.string? (c :: u ++ rest)).map fun r => (.string (String.ofList r.1), r.2) := by
      rcases hc with rfl | rfl <;> rfl
    rw [hscalar, hread, Option.map_some]

/-! ## Any single value -/

/-- A value that is neither an array nor a table. -/
inductive IsScalar : List Char → Prop
  | boolean {s : List Char} {b : Bool} (h : IsBoolean s b) : IsScalar s
  | string {s : List Char} (h : IsString s) : IsScalar s
  | integer {s : List Char} {n : ℤ} (h : IsInteger s n) : IsScalar s
  | float {s : List Char} (h : IsFloat s) : IsScalar s
  | dateTime {s : List Char} (h : IsDateTime s) : IsScalar s

/-- **Single values** are read. -/
theorem IsScalar.spells {s : List Char} (h : IsScalar s) : ∃ v, Spells 0 s v := by
  cases h with
  | boolean h => exact ⟨_, h.spells⟩
  | string h =>
    obtain ⟨t, ht⟩ := h.spells
    exact ⟨_, ht⟩
  | integer h => exact ⟨_, h.spells⟩
  | float h =>
    obtain ⟨x, hx⟩ := h.spells
    exact ⟨_, hx⟩
  | dateTime h => exact ⟨_, h.spells⟩

/-! ## What no value begins with -/

/-- No single value begins with one of these. -/
theorem scalar?_eq_none {c : Char} (hc : c ∈ [' ', '\t', '#', '\n', '\r', ']', '[', '\x7b'])
    (s : List Char) : scalar? (c :: s) = none := by
  simp only [List.mem_cons, List.not_mem_nil, or_false] at hc
  have hdigit : ∀ d ∈ (c :: s).head?, d.isDigit = false := by
    intro d hd
    obtain rfl := Option.some.inj hd
    rcases hc with rfl | rfl | rfl | rfl | rfl | rfl | rfl | rfl <;> rfl
  rw [scalar?_cons (by rcases hc with rfl | rfl | rfl | rfl | rfl | rfl | rfl | rfl <;> simp),
    numeral?, dateTime?_of_head hdigit]
  rcases hc with rfl | rfl | rfl | rfl | rfl | rfl | rfl | rfl <;> rfl

/-- **A value begins** with none of the characters between two values or behind the last. -/
theorem Spells.exists_cons {n : ℕ} {s : List Char} {v : Value} (h : Spells n s v) :
    ∃ c t, s = c :: t ∧ c ∉ [' ', '\t', '#', '\n', '\r', ']'] := by
  cases s with
  | nil => cases h n 0 [] le_rfl le_rfl ends_nil
  | cons c t =>
    refine ⟨c, t, rfl, fun hc => ?_⟩
    have hread := h n (2 * t.length + 1 + 1) [] le_rfl le_rfl ends_nil
    have hnone : scalar? (c :: (t ++ [])) = none := by
      refine scalar?_eq_none ?_ _
      simp only [List.mem_cons, List.not_mem_nil, or_false] at hc ⊢
      tauto
    rw [List.cons_append, value?_cons, hnone] at hread
    · cases hread
    · rintro rfl
      simp at hc
    · rintro rfl
      simp at hc

theorem Spells.skipBlanks_append {n : ℕ} {s : List Char} {v : Value} (h : Spells n s v)
    (rest : List Char) : skipBlanks (s ++ rest) = s ++ rest := by
  obtain ⟨c, t, rfl, hc⟩ := h.exists_cons
  refine skipBlanks_cons ?_ _
  simp only [List.mem_cons, List.not_mem_nil, or_false, not_or] at hc
  simp [isBlank, hc]

theorem Spells.skipLines_append {n : ℕ} {s : List Char} {v : Value} (h : Spells n s v)
    (rest : List Char) : skipLines false (s ++ rest) = s ++ rest := by
  obtain ⟨c, t, rfl, hc⟩ := h.exists_cons
  refine skipLines_cons (fun hgap => hc ?_) _
  simp only [List.mem_cons, List.not_mem_nil, or_false] at hgap ⊢
  tauto

end GeoPartition.Toml
