import Mathlib
import GeoPartition.Binary64.Rounding

/-!
# The order of binary64 numbers

Numbers compare as their ranks do. Ranks and values in units are mirror images below zero of what
they are above, and so is the rounding of a value; `mirrored` is that extension, and it keeps a
monotone function monotone, and a strictly monotone one strictly so.
-/

namespace GeoPartition

/-- The extension of a function on natural numbers to the negative ones, mirrored at zero. -/
def mirrored (f : ℕ → ℕ) (i : ℤ) : ℤ := if i < 0 then -(f i.natAbs : ℤ) else f i.natAbs

theorem mirrored_signed {f : ℕ → ℕ} (h : f 0 = 0) (s : Bool) (n : ℕ) :
    mirrored f (if s then -(n : ℤ) else n) = if s then -(f n : ℤ) else f n := by
  cases s with
  | false => simp [mirrored]
  | true =>
    rcases Nat.eq_zero_or_pos n with rfl | hn
    · simp [mirrored, h]
    · simp [mirrored, hn.ne']

theorem mirrored_mono {f : ℕ → ℕ} (h : Monotone f) : Monotone (mirrored f) := by
  intro i j hij
  unfold mirrored
  split_ifs with hi hj hj
  · have := h (show j.natAbs ≤ i.natAbs by omega)
    omega
  · omega
  · omega
  · exact_mod_cast h (show i.natAbs ≤ j.natAbs by omega)

theorem mirrored_strictMono {f : ℕ → ℕ} (h : StrictMono f) : StrictMono (mirrored f) := by
  intro i j hij
  unfold mirrored
  split_ifs with hi hj hj
  · have := h (show j.natAbs < i.natAbs by omega)
    omega
  · have := h.monotone (Nat.zero_le i.natAbs)
    have := h (show 0 < i.natAbs by omega)
    omega
  · omega
  · exact_mod_cast h (show i.natAbs < j.natAbs by omega)

theorem Magnitude.eq_of_steps {m n : Magnitude} (h : m.steps = n.steps) : m = n := by
  cases m
  cases n
  cases h
  rfl

namespace Binary64

/-- Is `x` at most `y`? Never, if one of them is not a number; the two zeros are equal. -/
def le (x y : Binary64) : Bool :=
  match x.rank?, y.rank? with
  | some i, some j => i ≤ j
  | _, _ => false

theorem le_iff {x y : Binary64} :
    x.le y = true ↔ ∃ i j, x.rank? = some i ∧ y.rank? = some j ∧ i ≤ j := by
  unfold le
  cases x.rank? <;> cases y.rank? <;> simp

theorem lt_iff {x y : Binary64} :
    x.lt y = true ↔ ∃ i j, x.rank? = some i ∧ y.rank? = some j ∧ i < j := by
  unfold lt
  cases x.rank? <;> cases y.rank? <;> simp

theorem rank?_eq_none_iff {x : Binary64} : x.rank? = none ↔ x = nan := by
  cases x <;> simp [rank?]

theorem exists_rank {x : Binary64} (h : x ≠ nan) : ∃ i, x.rank? = some i :=
  Option.ne_none_iff_exists'.1 (mt rank?_eq_none_iff.1 h)

theorem le_refl {x : Binary64} (h : x ≠ nan) : x.le x = true := by
  obtain ⟨i, hi⟩ := exists_rank h
  exact le_iff.2 ⟨i, i, hi, hi, Int.le_refl i⟩

theorem le_trans {x y z : Binary64} (hxy : x.le y = true) (hyz : y.le z = true) :
    x.le z = true := by
  obtain ⟨i, j, hi, hj, hij⟩ := le_iff.1 hxy
  obtain ⟨j', k, hj', hk, hjk⟩ := le_iff.1 hyz
  obtain rfl : j = j' := Option.some.inj (hj.symm.trans hj')
  exact le_iff.2 ⟨i, k, hi, hk, hij.trans hjk⟩

theorem ne_nan_of_le_left {x y : Binary64} (h : x.le y = true) : x ≠ nan := by
  rintro rfl
  obtain ⟨i, j, hi, -⟩ := le_iff.1 h
  cases hi

theorem ne_nan_of_le_right {x y : Binary64} (h : x.le y = true) : y ≠ nan := by
  rintro rfl
  obtain ⟨i, j, -, hj, -⟩ := le_iff.1 h
  cases hj

theorem lt_false_iff {x y : Binary64} (hx : x ≠ nan) (hy : y ≠ nan) :
    x.lt y = false ↔ y.le x = true := by
  obtain ⟨i, hi⟩ := exists_rank hx
  obtain ⟨j, hj⟩ := exists_rank hy
  simp [lt, le, hi, hj]

theorem le_of_lt {x y : Binary64} (h : x.lt y = true) : x.le y = true := by
  obtain ⟨i, j, hi, hj, hij⟩ := lt_iff.1 h
  exact le_iff.2 ⟨i, j, hi, hj, Int.le_of_lt hij⟩

theorem ne_nan_of_isFinite {x : Binary64} (h : x.isFinite = true) : x ≠ nan := by
  rintro rfl
  cases h

/-- A finite number is one whose rank is that of no infinity. -/
theorem isFinite_iff {x : Binary64} :
    x.isFinite = true ↔ ∃ i, x.rank? = some i ∧ i.natAbs < infiniteSteps := by
  cases x with
  | nan => simp [isFinite, rank?]
  | signed s m => cases s <;> simp [isFinite, rank?, Magnitude.isFinite]

theorem isFinite_of_le_of_le {x y z : Binary64} (hxy : x.le y = true) (hyz : y.le z = true)
    (hx : x.isFinite = true) (hz : z.isFinite = true) : y.isFinite = true := by
  obtain ⟨i, j, hi, hj, hij⟩ := le_iff.1 hxy
  obtain ⟨j', k, hj', hk, hjk⟩ := le_iff.1 hyz
  obtain ⟨i', hi', hix⟩ := isFinite_iff.1 hx
  obtain ⟨k', hk', hkz⟩ := isFinite_iff.1 hz
  rw [hi, Option.some.injEq] at hi'
  rw [hj, Option.some.injEq] at hj'
  rw [hk, Option.some.injEq] at hk'
  subst hi' hj' hk'
  exact isFinite_iff.2 ⟨j, hj, by omega⟩

/-! ## Equal numbers -/

theorem same_iff {x y : Binary64} :
    x.same y = true ↔ ∃ i, x.rank? = some i ∧ y.rank? = some i := by
  unfold same
  cases x.rank? with
  | none => simp
  | some i => cases y.rank? <;> simp [@eq_comm _ _ i]

theorem same_iff_le {x y : Binary64} : x.same y = true ↔ x.le y = true ∧ y.le x = true := by
  constructor
  · intro h
    obtain ⟨i, hx, hy⟩ := same_iff.1 h
    exact ⟨le_iff.2 ⟨i, i, hx, hy, Int.le_refl i⟩, le_iff.2 ⟨i, i, hy, hx, Int.le_refl i⟩⟩
  · rintro ⟨hxy, hyx⟩
    obtain ⟨i, j, hx, hy, hij⟩ := le_iff.1 hxy
    obtain ⟨j', i', hy', hx', hji⟩ := le_iff.1 hyx
    obtain rfl : j = j' := Option.some.inj (hy.symm.trans hy')
    obtain rfl : i = i' := Option.some.inj (hx.symm.trans hx')
    obtain rfl := Int.le_antisymm hij hji
    exact same_iff.2 ⟨i, hx, hy⟩

/-- Equal numbers are identical, but for the two zeros. -/
theorem eq_or_zero_of_same {x y : Binary64} (h : x.same y = true) :
    x = y ∨ ∃ s t, x = signed s .zero ∧ y = signed t .zero := by
  obtain ⟨i, hx, hy⟩ := same_iff.1 h
  cases x with
  | nan => cases hx
  | signed s m =>
    cases y with
    | nan => cases hy
    | signed t n =>
      have hrank := Option.some.inj (hx.trans hy.symm)
      by_cases hst : s = t
      · subst hst
        have hsteps : m.steps = n.steps := by cases s <;> simp at hrank <;> omega
        exact .inl (congrArg (signed s) (Magnitude.eq_of_steps hsteps))
      · have hzero : m.steps = 0 ∧ n.steps = 0 := by
          cases s <;> cases t <;> simp at hrank hst <;> omega
        exact .inr ⟨s, t, congrArg (signed s) (Magnitude.eq_of_steps hzero.1),
          congrArg (signed t) (Magnitude.eq_of_steps hzero.2)⟩

/-! ## The smaller of two numbers -/

theorem rank?_min {x y : Binary64} {i j : ℤ} (hx : x.rank? = some i) (hy : y.rank? = some j) :
    (x.min y).rank? = some (Min.min i j) := by
  have hn : x ≠ nan := fun h => by simp [h, rank?] at hx
  have hlt : y.lt x = decide (j < i) := by simp [lt, hx, hy]
  unfold min
  rw [if_neg hn, hlt]
  by_cases h : j < i
  · simp [h, hy, Int.le_of_lt h]
  · simp [h, hx, Int.not_lt.1 h]

theorem min_le_min_right {x y : Binary64} (h : x.le y = true) {c : Binary64} (hc : c ≠ nan) :
    (x.min c).le (y.min c) = true := by
  obtain ⟨i, j, hi, hj, hij⟩ := le_iff.1 h
  obtain ⟨k, hk⟩ := exists_rank hc
  exact le_iff.2 ⟨_, _, rank?_min hi hk, rank?_min hj hk, by omega⟩

theorem min_le_right {x c : Binary64} (hx : x ≠ nan) (hc : c ≠ nan) : (x.min c).le c = true := by
  obtain ⟨i, hi⟩ := exists_rank hx
  obtain ⟨k, hk⟩ := exists_rank hc
  exact le_iff.2 ⟨_, _, rank?_min hi hk, hk, by omega⟩

theorem le_min {x y c : Binary64} (hy : x.le y = true) (hc : x.le c = true) :
    x.le (y.min c) = true := by
  obtain ⟨i, j, hi, hj, hij⟩ := le_iff.1 hy
  obtain ⟨i', k, hi', hk, hik⟩ := le_iff.1 hc
  obtain rfl : i = i' := Option.some.inj (hi.symm.trans hi')
  exact le_iff.2 ⟨_, _, hi, rank?_min hj hk, by omega⟩

end Binary64

end GeoPartition
