import GeoPartition.Proofs.Toml.Blanks
import GeoPartition.Toml.Scalar

/-!
# Dates and times of TOML

A date, a time of day, or a date with a time behind a letter or a blank, which may have an offset
from universal time.

**Theorem (`IsDateTime.dateTime?`).** Each of them is read up to its end. A date in front of a blank
is no date with a time, as no digit follows.

Numbers are told apart by what stands behind their first digits: no dash and no colon
(`dateTime?_of_digits`).
-/

namespace GeoPartition.Toml

/-! ## The parts of a date -/

/-- A number of `n` digits between two bounds. -/
structure IsFixed (n low high : ℕ) (s : List Char) : Prop where
  length : s.length = n
  digits : ∀ c ∈ s, c.isDigit
  low_le : low ≤ Nat.ofDigitChars 10 s 0
  le_high : Nat.ofDigitChars 10 s 0 ≤ high

/-- A day of a month, with dashes between its numbers. -/
inductive IsDate : List Char → Prop
  | mk {year month day : List Char} (hyear : IsFixed 4 0 9999 year) (hmonth : IsFixed 2 1 12 month)
      (hday : IsFixed 2 1
        (daysInMonth (Nat.ofDigitChars 10 year 0) (Nat.ofDigitChars 10 month 0)) day) :
      IsDate (year ++ '-' :: (month ++ '-' :: day))

/-- A fraction of a second, if there is one. -/
inductive IsSplitSecond : List Char → Prop
  | absent : IsSplitSecond []
  | digits {ds : List Char} (hne : ds ≠ []) (hds : ∀ c ∈ ds, c.isDigit) : IsSplitSecond ('.' :: ds)

/-- A time of day; a leap second counts as one. -/
inductive IsTime : List Char → Prop
  | mk {hour minute second fraction : List Char} (hhour : IsFixed 2 0 23 hour)
      (hminute : IsFixed 2 0 59 minute) (hsecond : IsFixed 2 0 60 second)
      (hfraction : IsSplitSecond fraction) :
      IsTime (hour ++ ':' :: (minute ++ ':' :: (second ++ fraction)))

/-- An offset from universal time. -/
inductive IsOffset : List Char → Prop
  | none {c : Char} (hc : c = 'Z' ∨ c = 'z') : IsOffset [c]
  | shift {c : Char} {hour minute : List Char} (hc : c = '+' ∨ c = '-')
      (hhour : IsFixed 2 0 23 hour) (hminute : IsFixed 2 0 59 minute) :
      IsOffset (c :: (hour ++ ':' :: minute))

/-- A date, a time, or both, and then perhaps with an offset. -/
inductive IsDateTime : List Char → Prop
  | date {s : List Char} (h : IsDate s) : IsDateTime s
  | time {s : List Char} (h : IsTime s) : IsDateTime s
  | both {d t : List Char} {c : Char} (hd : IsDate d) (hc : c = 'T' ∨ c = 't' ∨ c = ' ')
      (ht : IsTime t) : IsDateTime (d ++ c :: t)
  | withOffset {d t o : List Char} {c : Char} (hd : IsDate d) (hc : c = 'T' ∨ c = 't' ∨ c = ' ')
      (ht : IsTime t) (ho : IsOffset o) : IsDateTime (d ++ c :: (t ++ o))

/-! ## Reading them -/

theorem IsFixed.fixed? {n low high : ℕ} {s : List Char} (h : IsFixed n low high s)
    (rest : List Char) : fixed? n low high (s ++ rest) = some (Nat.ofDigitChars 10 s 0, rest) := by
  have htake : (s ++ rest).take n = s := by simp [← h.length]
  have hdrop : (s ++ rest).drop n = rest := by simp [← h.length]
  unfold Toml.fixed?
  rw [htake, hdrop]
  exact if_pos ⟨h.length, List.all_eq_true.2 h.digits, h.low_le, h.le_high⟩

theorem fixed?_eq_none {n : ℕ} (low high : ℕ) {s : List Char}
    (h : ∀ c ∈ s.head?, c.isDigit = false) : fixed? (n + 1) low high s = none := by
  cases s with
  | nil => simp [fixed?]
  | cons c s => simp [fixed?, h c rfl]

theorem char?_cons (c : Char) (s : List Char) : char? c (c :: s) = some s := by
  simp [char?]

theorem IsDate.date? {s : List Char} (h : IsDate s) (rest : List Char) :
    date? (s ++ rest) = some rest := by
  obtain @⟨year, month, day, hyear, hmonth, hday⟩ := h
  simp [Toml.date?, hyear.fixed?, hmonth.fixed?, hday.fixed?, char?_cons]

/-- A time of day does not go on in a text. -/
def EndsTime (rest : List Char) : Prop := ∀ c ∈ rest.head?, c.isDigit = false ∧ c ≠ '.'

theorem IsSplitSecond.skipFraction {fraction : List Char} (h : IsSplitSecond fraction)
    {rest : List Char} (hrest : EndsTime rest) : skipFraction (fraction ++ rest) = rest := by
  cases h with
  | absent =>
    cases rest with
    | nil => rfl
    | cons c rest => simp [Toml.skipFraction, (hrest c rfl).2]
  | @digits ds hne hds =>
    obtain ⟨htake, hdrop⟩ :
        rest.takeWhile Char.isDigit = [] ∧ rest.dropWhile Char.isDigit = rest := by
      cases rest with
      | nil => exact ⟨rfl, rfl⟩
      | cons c rest => simp [(hrest c rfl).1]
    simp [Toml.skipFraction, List.takeWhile_append_of_pos hds, List.dropWhile_append_of_pos hds,
      htake, hdrop, hne]

theorem IsTime.time? {s : List Char} (h : IsTime s) {rest : List Char} (hrest : EndsTime rest) :
    time? (s ++ rest) = some rest := by
  obtain @⟨hour, minute, second, fraction, hhour, hminute, hsecond, hfraction⟩ := h
  simp [Toml.time?, hhour.fixed?, hminute.fixed?, hsecond.fixed?, char?_cons,
    hfraction.skipFraction hrest]

theorem IsOffset.offset? {s : List Char} (h : IsOffset s) (rest : List Char) :
    offset? (s ++ rest) = some rest := by
  cases h with
  | none hc => rcases hc with rfl | rfl <;> rfl
  | shift hc hhour hminute =>
    rcases hc with rfl | rfl <;>
      simp [Toml.offset?, hhour.fixed?, hminute.fixed?, char?_cons]

theorem IsOffset.endsTime {s : List Char} (h : IsOffset s) (rest : List Char) :
    EndsTime (s ++ rest) := by
  intro c hc
  cases h with
  | none hz =>
    obtain rfl := Option.some.inj hc
    rcases hz with rfl | rfl <;> decide
  | shift hsign _ _ =>
    obtain rfl := Option.some.inj hc
    rcases hsign with rfl | rfl <;> decide

/-- What a time begins with is no date. -/
theorem IsTime.date?_eq_none {s : List Char} (h : IsTime s) (rest : List Char) :
    date? (s ++ rest) = none := by
  obtain @⟨hour, minute, second, fraction, hhour, -, -, -⟩ := h
  have hfixed (s : List Char) : fixed? 4 0 9999 (hour ++ ':' :: s) = none := by
    simp [fixed?, List.take_append, hhour.length]
  simp [date?, hfixed]

theorem time?_of_head {s : List Char} (h : ∀ c ∈ s.head?, c.isDigit = false) : time? s = none := by
  simp [time?, fixed?_eq_none 0 23 h]

theorem dateTime?_of_head {s : List Char} (h : ∀ c ∈ s.head?, c.isDigit = false) :
    dateTime? s = none := by
  simp [dateTime?, date?, fixed?_eq_none 0 9999 h, time?_of_head h]

section

variable {rest : List Char} (hrest : Ends rest)

include hrest

theorem Ends.endsTime : EndsTime rest := by
  intro c hc
  have hclass := hrest.head? (p := fun c => c.isDigit || c = '.') (by decide) c hc
  simpa using hclass

/-- No time follows a date that ends. -/
theorem Ends.timeOfDate? : timeOfDate? rest = none := by
  unfold Toml.timeOfDate?
  split
  · exact absurd (hrest.head? (p := (· = 'T')) (by decide) 'T' rfl) (by decide)
  · exact absurd (hrest.head? (p := (· = 't')) (by decide) 't' rfl) (by decide)
  · next s =>
    have hs : Ends s := hrest
    rw [time?_of_head (hs.head? (by decide)), Option.map_none]
  · rfl

/-- No offset follows a time that ends. -/
theorem Ends.offset? : offset? rest = none := by
  have hclass := hrest.head? (p := (· ∈ ['Z', 'z', '+', '-'])) (by decide)
  cases rest with
  | nil => rfl
  | cons c rest =>
    have hc := hclass c rfl
    simp only [List.mem_cons, List.not_mem_nil, or_false, decide_eq_false_iff_not, not_or] at hc
    obtain ⟨hZ, hz, hplus, hminus⟩ := hc
    simp [Toml.offset?, hZ, hz, hplus, hminus]

/-- **Dates and times** are read up to their end. -/
theorem IsDateTime.dateTime? {s : List Char} (h : IsDateTime s) :
    dateTime? (s ++ rest) = some rest := by
  unfold Toml.dateTime?
  cases h with
  | date h =>
    rw [h.date?]
    simp [hrest.timeOfDate?]
  | time h =>
    rw [h.date?_eq_none]
    exact h.time? hrest.endsTime
  | @both d t c hd hc ht =>
    have htime := ht.time? hrest.endsTime
    rw [List.append_assoc, hd.date?]
    rcases hc with rfl | rfl | rfl <;>
      simp [Toml.timeOfDate?, htime, hrest.offset?]
  | @withOffset d t o c hd hc ht ho =>
    have htime := ht.time? (ho.endsTime rest)
    rw [List.append_assoc, hd.date?]
    rcases hc with rfl | rfl | rfl <;>
      simp [Toml.timeOfDate?, htime, ho.offset?]

end

/-! ## What is no date -/

/-- Behind some of the digits in front of a text stand more digits, or what stands behind all. -/
theorem char?_drop {c : Char} (hc : c.isDigit = false) {s : List Char}
    (h : ∀ d ∈ (s.dropWhile Char.isDigit).head?, d ≠ c) {n : ℕ}
    (hn : ∀ d ∈ s.take n, d.isDigit) : char? c (s.drop n) = none := by
  induction s generalizing n with
  | nil => simp [char?]
  | cons d s ih =>
    cases n with
    | zero =>
      have hne : d ≠ c := by
        by_cases hd : d.isDigit
        · exact Text.ne_of_class hd hc
        · exact h d (by simp [hd])
      simp [char?, hne]
    | succ n =>
      obtain ⟨hd, hn⟩ := List.forall_mem_cons.1 hn
      rw [List.dropWhile_cons_of_pos hd] at h
      exact ih h hn

/-- **No date and no time** begins with digits and goes on without a dash and a colon. -/
theorem dateTime?_of_digits {s : List Char}
    (h : ∀ d ∈ (s.dropWhile Char.isDigit).head?, d ≠ '-' ∧ d ≠ ':') : dateTime? s = none := by
  have hchar {c : Char} (hc : c = '-' ∨ c = ':') {n low high x : ℕ} {r : List Char}
      (hx : fixed? n low high s = some (x, r)) : char? c r = none := by
    simp only [fixed?, Option.ite_none_right_eq_some, Option.some.injEq, Prod.mk.injEq,
      List.all_eq_true] at hx
    obtain ⟨⟨-, hall, -⟩, -, rfl⟩ := hx
    rcases hc with rfl | rfl
    · exact char?_drop (by decide) (fun d hd => (h d hd).1) hall
    · exact char?_drop (by decide) (fun d hd => (h d hd).2) hall
  have hdate : date? s = none := by
    unfold date?
    cases hyear : fixed? 4 0 9999 s with
    | none => rfl
    | some year => simp [hchar (.inl rfl) hyear]
  have htime : time? s = none := by
    unfold time?
    cases hhour : fixed? 2 0 23 s with
    | none => rfl
    | some hour => simp [hchar (.inr rfl) hhour]
  rw [dateTime?, hdate, htime]

end GeoPartition.Toml
