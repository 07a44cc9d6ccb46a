import GeoPartition.Proofs.Toml.Clock

/-!
# Numbers of TOML

Digits may have single underscores between them. An integer is written in decimal digits with an
optional sign, or in another base behind its letter; it has 64 bits. A float has a fraction, an
exponent or both, or is a word.

**Theorems (`IsInteger.integer?`, `IsFloat.float?`).** Integers are read as the number they stand
for, and floats are read unless they are rounded beyond all finite numbers. Neither is taken for
anything that is tried before it.
-/

namespace GeoPartition.Toml

/-! ## Digits -/

/-- Digits with single underscores between them: how they are written, and the digits alone. -/
inductive IsRun (isDigit : Char → Bool) : List Char → List Char → Prop
  | last {c : Char} (hc : isDigit c) : IsRun isDigit [c] [c]
  | next {c : Char} {s ds : List Char} (hc : isDigit c) (h : IsRun isDigit s ds) :
      IsRun isDigit (c :: s) (c :: ds)
  | spaced {c : Char} {s ds : List Char} (hc : isDigit c) (h : IsRun isDigit s ds) :
      IsRun isDigit (c :: '_' :: s) (c :: ds)

section

variable {isDigit : Char → Bool}

theorem IsRun.exists_cons {s ds : List Char} (h : IsRun isDigit s ds) :
    ∃ c t us, s = c :: t ∧ ds = c :: us ∧ isDigit c := by
  cases h with
  | last hc | next hc _ | spaced hc _ => exact ⟨_, _, _, rfl, rfl, hc⟩

theorem digitRun_cons (hunder : isDigit '_' = false) {c : Char} (hc : isDigit c) (s : List Char) :
    digitRun isDigit (c :: s) = (c :: (digitRun isDigit s).1, (digitRun isDigit s).2) := by
  rw [digitRun]
  · simp [hc]
  · intro d t h _
    exact Text.ne_of_class hc hunder h

theorem digitRun_underscore (hunder : isDigit '_' = false) {c : Char} (hc : isDigit c)
    (s : List Char) : digitRun isDigit ('_' :: c :: s) = digitRun isDigit (c :: s) := by
  rw [digitRun_cons hunder hc, digitRun, if_pos hc]

theorem digitRun_of_head {rest : List Char}
    (hrest : ∀ c ∈ rest.head?, (isDigit c || c = '_') = false) :
    digitRun isDigit rest = ([], rest) := by
  cases rest with
  | nil => rfl
  | cons c rest =>
    have hc := hrest c rfl
    simp only [Bool.or_eq_false_iff, decide_eq_false_iff_not] at hc
    rw [digitRun]
    · simp [hc.1]
    · intro d t h _
      exact hc.2 h

/-- **A run of digits** is read up to what is neither a digit nor an underscore. -/
theorem IsRun.digits? {s ds : List Char} (h : IsRun isDigit s ds) (hunder : isDigit '_' = false)
    {rest : List Char} (hrest : ∀ c ∈ rest.head?, (isDigit c || c = '_') = false) :
    digits? isDigit (s ++ rest) = some (ds, rest) := by
  have hrun : digitRun isDigit (s ++ rest) = (ds, rest) := by
    induction h with
    | last hc => rw [List.singleton_append, digitRun_cons hunder hc, digitRun_of_head hrest]
    | next hc _ ih => rw [List.cons_append, digitRun_cons hunder hc, ih]
    | spaced hc h ih =>
      obtain ⟨d, t, us, rfl, -, hd⟩ := h.exists_cons
      rw [List.cons_append] at ih
      rw [List.cons_append, List.cons_append, List.cons_append, digitRun_cons hunder hc,
        digitRun_underscore hunder hd, ih]
  obtain ⟨c, t, us, rfl, -, hc⟩ := h.exists_cons
  rw [List.cons_append] at hrun ⊢
  rw [Toml.digits?, if_pos hc, hrun]

end

/-- Does a character go on with decimal digits? -/
def continues (c : Char) : Bool := c.isDigit || c = '_'

/-- The digits in front of a run end in an underscore, or where the run does. -/
theorem IsRun.head?_dropWhile {s ds : List Char} (h : IsRun Char.isDigit s ds) {rest : List Char}
    {p : Char → Prop} (hunder : p '_') (hrest : ∀ c ∈ rest.head?, c.isDigit = false ∧ p c) :
    ∀ c ∈ ((s ++ rest).dropWhile Char.isDigit).head?, p c := by
  induction h with
  | last hc =>
    rw [List.singleton_append, List.dropWhile_cons_of_pos hc]
    cases rest with
    | nil => simp
    | cons c rest => simpa [(hrest c rfl).1] using (hrest c rfl).2
  | next hc _ ih =>
    rw [List.cons_append, List.dropWhile_cons_of_pos hc]
    exact ih
  | spaced hc _ _ =>
    rw [List.cons_append, List.dropWhile_cons_of_pos hc]
    simpa using hunder

/-- Decimal digits of which a zero in front stands alone. -/
structure IsWhole (s ds : List Char) : Prop where
  run : IsRun Char.isDigit s ds
  zero : ds.head? = some '0' → s = ['0'] ∧ ds = ['0']

theorem IsWhole.wholeDigits? {s ds : List Char} (h : IsWhole s ds) {rest : List Char}
    (hrest : ∀ c ∈ rest.head?, continues c = false) :
    wholeDigits? (s ++ rest) = some (ds, rest) := by
  obtain ⟨c, t, us, hs, hds, hc⟩ := h.run.exists_cons
  by_cases hzero : c = '0'
  · obtain ⟨rfl, rfl⟩ := h.zero (by simp [hds, hzero])
    rfl
  · rw [← h.run.digits? (by decide) hrest, hs, List.cons_append, Toml.wholeDigits?]
    simp [hzero]

/-! ## Signs -/

/-- A sign, if there is one. -/
inductive IsSign : List Char → Prop
  | absent : IsSign []
  | plus : IsSign ['+']
  | minus : IsSign ['-']

/-- Is a number with a sign negative? -/
def isMinus (sign : List Char) : Bool := sign = ['-']

/-- A number with its sign. -/
def withSign (sign : List Char) (n : ℕ) : ℤ := if isMinus sign then -(n : ℤ) else n

theorem IsSign.splitSign {sign : List Char} (h : IsSign sign) {c : Char} (hplus : c ≠ '+')
    (hminus : c ≠ '-') (s : List Char) :
    Text.splitSign (sign ++ c :: s) = (isMinus sign, c :: s) := by
  cases h with
  | absent => simp [Text.splitSign, isMinus, hplus, hminus]
  | plus => rfl
  | minus => rfl

theorem IsSign.splitSign_run {sign : List Char} (h : IsSign sign) {s ds : List Char}
    (hs : IsRun Char.isDigit s ds) (rest : List Char) :
    Text.splitSign (sign ++ (s ++ rest)) = (isMinus sign, s ++ rest) := by
  obtain ⟨c, t, us, rfl, -, hc⟩ := hs.exists_cons
  exact h.splitSign (Text.ne_of_class hc (by decide)) (Text.ne_of_class hc (by decide)) (t ++ rest)

/-! ## Integers -/

/-- The number that digits stand for in a base. -/
def ofDigits (base : ℕ) (ds : List Char) : ℕ :=
  ds.foldl (fun n c => base * n + (Text.hexDigit? c).getD 0) 0

/-- Is a character a digit of a base? -/
def isDigitOf (base : ℕ) (c : Char) : Bool := (Text.hexDigit? c).any (· < base)

/-- An integer of 64 bits as it is written, and what it stands for. -/
inductive IsInteger : List Char → ℤ → Prop
  | decimal {sign s ds : List Char} (hsign : IsSign sign) (hs : IsWhole s ds)
      (hlow : -2 ^ 63 ≤ withSign sign (ofDigits 10 ds))
      (hhigh : withSign sign (ofDigits 10 ds) < 2 ^ 63) :
      IsInteger (sign ++ s) (withSign sign (ofDigits 10 ds))
  | inBase {letter : Char} {base : ℕ} {s ds : List Char}
      (hbase : (letter, base) ∈ [('x', 16), ('o', 8), ('b', 2)])
      (hs : IsRun (isDigitOf base) s ds) (hhigh : ofDigits base ds < 2 ^ 63) :
      IsInteger ('0' :: letter :: s) (ofDigits base ds)

theorem ofDigits_ten {ds : List Char} (h : ∀ c ∈ ds, c.isDigit) :
    ofDigits 10 ds = Nat.ofDigitChars 10 ds 0 := by
  refine List.foldl_ext _ _ 0 fun n c hc => ?_
  simp [Text.hexDigit?, h c hc]

theorem IsRun.isDigit {isDigit : Char → Bool} {s ds : List Char} (h : IsRun isDigit s ds) :
    ∀ c ∈ ds, isDigit c := by
  induction h with
  | last hc => simpa using hc
  | next hc _ ih | spaced hc _ ih => exact List.forall_mem_cons.2 ⟨hc, ih⟩

theorem isRun_self {isDigit : Char → Bool} {ds : List Char} (hne : ds ≠ [])
    (h : ∀ c ∈ ds, isDigit c) : IsRun isDigit ds ds := by
  induction ds with
  | nil => exact absurd rfl hne
  | cons c ds ih =>
    obtain ⟨hc, hds⟩ := List.forall_mem_cons.1 h
    by_cases hnil : ds = []
    · subst hnil
      exact .last hc
    · exact .next hc (ih hnil hds)

/-- Numbers of 63 bits can be written in decimal digits. -/
theorem isInteger_toDigits {n : ℕ} (h : n < 2 ^ 63) : IsInteger (Nat.toDigits 10 n) n := by
  have hdigits : ∀ c ∈ Nat.toDigits 10 n, c.isDigit := fun _ => Text.isDigit_of_mem_toDigits
  have hwhole : IsWhole (Nat.toDigits 10 n) (Nat.toDigits 10 n) := by
    refine ⟨isRun_self Nat.toDigits_ne_nil hdigits, fun hhead => ?_⟩
    rw [Text.eq_zero_of_head?_toDigits hhead, Nat.toDigits_zero]
    exact ⟨rfl, rfl⟩
  have hvalue : withSign [] (ofDigits 10 (Nat.toDigits 10 n)) = n := by
    rw [ofDigits_ten hdigits, Nat.ofDigitChars_ten_toDigits]
    rfl
  have hinteger := IsInteger.decimal .absent hwhole (by rw [hvalue]; omega)
    (by rw [hvalue]; exact_mod_cast h)
  rwa [hvalue, List.nil_append] at hinteger

theorem Ends.continues {rest : List Char} (h : Ends rest) :
    ∀ c ∈ rest.head?, continues c = false :=
  h.head? (by decide)

theorem isDigitOf_le {base : ℕ} {c : Char} (h : (Text.hexDigit? c).isNone) :
    isDigitOf base c = false := by
  rw [isDigitOf, Option.isNone_iff_eq_none.1 h]
  rfl

theorem baseInteger?_append {base : ℕ} {s ds rest : List Char} (h : IsRun (isDigitOf base) s ds)
    (hhigh : ofDigits base ds < 2 ^ 63) (hrest : Ends rest) :
    baseInteger? base (s ++ rest) = some ((ofDigits base ds : ℤ), rest) := by
  have hhead : ∀ c ∈ rest.head?, (isDigitOf base c || c = '_') = false := by
    intro c hc
    have hclass := hrest.head? (p := fun c => (Text.hexDigit? c).isSome || c = '_') (by decide) c hc
    simp only [Bool.or_eq_false_iff, Option.isSome_eq_false_iff] at hclass
    simp only [Bool.or_eq_false_iff]
    exact ⟨isDigitOf_le hclass.1, hclass.2⟩
  have hdigits := h.digits? (isDigitOf_le rfl) hhead
  simp only [baseInteger?, Option.bind_eq_bind]
  show ((digits? (isDigitOf base) (s ++ rest)).bind _) = _
  rw [hdigits]
  exact if_pos hhigh

theorem integer?_decimal {sign s ds rest : List Char} (hsign : IsSign sign) (hs : IsWhole s ds)
    (hlow : -2 ^ 63 ≤ withSign sign (ofDigits 10 ds))
    (hhigh : withSign sign (ofDigits 10 ds) < 2 ^ 63) (hrest : Ends rest) :
    integer? (sign ++ (s ++ rest)) = some (withSign sign (ofDigits 10 ds), rest) := by
  have hwhole := hs.wholeDigits? hrest.continues
  have hvalue := ofDigits_ten hs.run.isDigit
  -- No letter of a base stands behind the first digit.
  have hbase {c : Char} (hc : c ∈ ['x', 'o', 'b']) (t : List Char) :
      sign ++ (s ++ rest) ≠ '0' :: c :: t := by
    intro h
    cases hsign with
    | plus | minus => cases h
    | absent =>
      obtain ⟨d, u, us, hds, hus, hd⟩ := hs.run.exists_cons
      rw [List.nil_append, hds, List.cons_append] at h
      obtain ⟨rfl, htail⟩ := List.cons.inj h
      obtain ⟨hzero, -⟩ := hs.zero (by rw [hus]; rfl)
      rw [hzero] at hds
      obtain ⟨-, rfl⟩ := List.cons.inj hds
      have hclass := hrest.head? (p := (· ∈ ['x', 'o', 'b'])) (by decide) c (by
        rw [← List.nil_append rest, htail, List.head?_cons, Option.mem_some])
      simp [hc] at hclass
  unfold integer?
  split
  · next h => exact absurd h (hbase (by simp) _)
  · next h => exact absurd h (hbase (by simp) _)
  · next h => exact absurd h (hbase (by simp) _)
  · rw [hsign.splitSign_run hs.run]
    simp only [hwhole, Option.bind_eq_bind, Option.bind_some, ← hvalue]
    by_cases hminus : isMinus sign = true
    · simp only [withSign, hminus, if_true] at hlow ⊢
      exact if_pos (by omega)
    · simp only [withSign, hminus, if_false, Bool.false_eq_true] at hhigh ⊢
      exact if_pos (by omega)

/-- **Integers** are read as what they stand for. -/
theorem IsInteger.integer? {s : List Char} {n : ℤ} (h : IsInteger s n) {rest : List Char}
    (hrest : Ends rest) : integer? (s ++ rest) = some (n, rest) := by
  cases h with
  | decimal hsign hs hlow hhigh =>
    rw [List.append_assoc]
    exact integer?_decimal hsign hs hlow hhigh hrest
  | inBase hbase hs hhigh =>
    have hread := baseInteger?_append hs hhigh hrest
    simp only [List.mem_cons, List.not_mem_nil, or_false, Prod.mk.injEq] at hbase
    rcases hbase with ⟨rfl, rfl⟩ | ⟨rfl, rfl⟩ | ⟨rfl, rfl⟩ <;> exact hread

/-! ## Floats -/

/-- An exponent as it is written, and what it stands for. -/
inductive IsExponent : List Char → ℤ → Prop
  | mk {e : Char} {sign s ds : List Char} (he : e = 'e' ∨ e = 'E') (hsign : IsSign sign)
      (hs : IsRun Char.isDigit s ds) :
      IsExponent (e :: (sign ++ s)) (withSign sign (ofDigits 10 ds))

/-- What makes a number a float: a fraction, an exponent or both, with the digits of the fraction
and what the exponent stands for. -/
inductive IsTail : List Char → List Char → ℤ → Prop
  | fraction {s ds : List Char} (hs : IsRun Char.isDigit s ds) : IsTail ('.' :: s) ds 0
  | exponent {e : List Char} {x : ℤ} (he : IsExponent e x) : IsTail e [] x
  | both {s ds e : List Char} {x : ℤ} (hs : IsRun Char.isDigit s ds) (he : IsExponent e x) :
      IsTail ('.' :: (s ++ e)) ds x

/-- A float as it is written, if it is not rounded beyond all finite numbers. -/
inductive IsFloat : List Char → Prop
  | decimal {sign s ds tail fs : List Char} {x : ℤ} (hsign : IsSign sign) (hs : IsWhole s ds)
      (htail : IsTail tail fs x)
      (hfinite : (Decimal.ofParts (isMinus sign) ds fs x).toBinary64 ≠ .infinity) :
      IsFloat (sign ++ (s ++ tail))
  | word {sign w : List Char} (hsign : IsSign sign)
      (hw : w = ['i', 'n', 'f'] ∨ w = ['n', 'a', 'n']) : IsFloat (sign ++ w)

section

variable {rest : List Char} (hrest : Ends rest)

include hrest

theorem IsExponent.exponent? {e : List Char} {x : ℤ} (h : IsExponent e x) :
    ∃ c s, e = c :: s ∧ (c = 'e' ∨ c = 'E') ∧ exponent? (s ++ rest) = some (x, rest) := by
  obtain @⟨e, sign, s, ds, he, hsign, hs⟩ := h
  refine ⟨e, sign ++ s, rfl, he, ?_⟩
  have hdigits := hs.digits? (by decide) hrest.continues
  have hvalue := ofDigits_ten hs.isDigit
  rw [List.append_assoc, Toml.exponent?, hsign.splitSign_run hs]
  simp [hdigits, ← hvalue, withSign]

/-- No exponent follows a number that ends. -/
theorem Ends.head?_exponent : ∀ c ∈ rest.head?, c ≠ '.' ∧ c ≠ 'e' ∧ c ≠ 'E' := by
  intro c hc
  have hclass := hrest.head? (p := (· ∈ ['.', 'e', 'E'])) (by decide) c hc
  simpa using hclass

omit hrest in
theorem IsTail.exists_cons {tail fs : List Char} {x : ℤ} (h : IsTail tail fs x) :
    ∃ c t, tail = c :: t ∧ (c = '.' ∨ c = 'e' ∨ c = 'E') := by
  cases h with
  | fraction _ | both _ _ => exact ⟨_, _, rfl, .inl rfl⟩
  | exponent he =>
    obtain ⟨he, -, -⟩ := he
    exact ⟨_, _, rfl, .inr he⟩

/-- **Floats** are read as the nearest binary number, if that is finite. -/
theorem decimalFloat?_append {sign s ds tail fs : List Char} {x : ℤ} (hsign : IsSign sign)
    (hs : IsWhole s ds) (htail : IsTail tail fs x)
    (hfinite : (Decimal.ofParts (isMinus sign) ds fs x).toBinary64 ≠ .infinity) :
    decimalFloat? (sign ++ (s ++ (tail ++ rest))) =
      some ((Decimal.ofParts (isMinus sign) ds fs x).toBinary64, rest) := by
  have hend : ∀ c ∈ rest.head?, c ≠ '.' ∧ c ≠ 'e' ∧ c ≠ 'E' := hrest.head?_exponent
  have hwhole : wholeDigits? (s ++ (tail ++ rest)) = some (ds, tail ++ rest) := by
    obtain ⟨c, t, rfl, hc⟩ := htail.exists_cons
    refine hs.wholeDigits? fun d hd => ?_
    obtain rfl := Option.some.inj hd
    rcases hc with rfl | rfl | rfl <;> rfl
  unfold decimalFloat?
  rw [hsign.splitSign_run hs.run]
  simp only [hwhole, Option.bind_eq_bind, Option.bind_some]
  cases htail with
  | @fraction s fs hf =>
    have hdigits := hf.digits? (by decide) hrest.continues
    simp only [List.cons_append, hdigits, Option.map_some, Option.bind_some]
    cases rest with
    | nil => simp [hfinite]
    | cons c rest =>
      obtain ⟨-, he, hE⟩ := hend c rfl
      simp [he, hE, hfinite]
  | @exponent e x he =>
    obtain ⟨c, t, rfl, hc, hread⟩ := he.exponent? hrest
    rcases hc with rfl | rfl <;> simp [hread, hfinite]
  | @both s fs e x hf he =>
    obtain ⟨c, t, rfl, hc, hread⟩ := he.exponent? hrest
    have hdigits :
        digits? Char.isDigit (s ++ (c :: (t ++ rest))) = some (fs, c :: (t ++ rest)) := by
      refine hf.digits? (by decide) fun d hd => ?_
      obtain rfl := Option.some.inj hd
      rcases hc with rfl | rfl <;> rfl
    rcases hc with rfl | rfl <;> simp [hdigits, hread, hfinite]

end

/-! ## What is tried before -/

/-- **Numbers are no dates and no times.** -/
theorem dateTime?_number {sign s ds rest : List Char} (hsign : IsSign sign) (hs : IsWhole s ds)
    (hrest : ∀ c ∈ rest.head?, c.isDigit = false ∧ c ≠ '-' ∧ c ≠ ':') :
    dateTime? (sign ++ (s ++ rest)) = none := by
  cases hsign with
  | absent =>
    exact dateTime?_of_digits (hs.run.head?_dropWhile (by decide) hrest)
  | plus | minus =>
    refine dateTime?_of_head fun c hc => ?_
    obtain rfl := Option.some.inj hc
    rfl

theorem wordFloat?_number {sign s ds : List Char} (hsign : IsSign sign)
    (hs : IsRun Char.isDigit s ds) (rest : List Char) :
    wordFloat? (sign ++ (s ++ rest)) = none := by
  unfold wordFloat?
  rw [hsign.splitSign_run hs]
  obtain ⟨c, t, us, rfl, -, hc⟩ := hs.exists_cons
  dsimp only [List.cons_append]
  split
  · next h => exact absurd h (Text.cons_ne_cons_of_class hc (by decide) _ _)
  · next h => exact absurd h (Text.cons_ne_cons_of_class hc (by decide) _ _)
  · rfl

/-- **Integers are no floats.** -/
theorem decimalFloat?_integer {sign s ds rest : List Char} (hsign : IsSign sign)
    (hs : IsWhole s ds) (hrest : Ends rest) : decimalFloat? (sign ++ (s ++ rest)) = none := by
  have hend := hrest.head?_exponent
  unfold decimalFloat?
  rw [hsign.splitSign_run hs.run]
  simp only [hs.wholeDigits? hrest.continues, Option.bind_eq_bind, Option.bind_some]
  cases rest with
  | nil => rfl
  | cons c rest =>
    obtain ⟨hpoint, he, hE⟩ := hend c rfl
    simp [hpoint, he, hE]

end GeoPartition.Toml
