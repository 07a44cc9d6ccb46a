import GeoPartition.Proofs.Binary64.Rounding

/-!
# Rounding to the nearest number

**Theorem (`Magnitude.stepsOfUnits_nearest`).** No value is nearer to a quotient of units than the
rounded one, and if another one is as near, the rounded one has an even number of steps.

The values in a binade are the multiples of the size of its steps, so there rounding is that to a
whole number. The values of the earlier binades are finer, but they are farther away than the
beginning of the binade, which is one of those multiples.

Products, sums and quotients of whole numbers are rounded once, so each is the number nearest to the
exact result (`Rounds`).
-/

namespace GeoPartition

namespace Magnitude

/-- How far `m` units are from `num / den` units, in parts of `den`. -/
def distance (num den : ℕ) (m : ℤ) : ℕ := ((num : ℤ) - den * m).natAbs

theorem distance_mul (num den c : ℕ) (j : ℤ) :
    distance num den (c * j) = distance num (den * c) j := by
  rw [distance, distance, Nat.cast_mul, mul_assoc]

/-- What lies farther below a quotient is farther away. -/
theorem distance_lt_distance {num den : ℕ} (hden : 0 < den) {l m : ℤ} (hlm : l < m)
    (hm : den * m ≤ num) : distance num den m < distance num den l := by
  have hlm' : (den : ℤ) * l < den * m := mul_lt_mul_of_pos_left hlm (by omega)
  unfold distance
  omega

/-! ## The nearest whole number -/

section roundHalfEven

variable {den : ℕ} (hden : 0 < den)

include hden

/-- Whole numbers are farther from a quotient the farther they are from the two around it. -/
theorem distance_cases (num : ℕ) (j : ℤ) :
    (j < (num / den : ℕ) ∧ num % den + den ≤ distance num den j) ∨
      (j = (num / den : ℕ) ∧ distance num den j = num % den) ∨
      (j = (num / den : ℕ) + 1 ∧ distance num den j + num % den = den) ∨
      ((num / den : ℕ) + 1 < j ∧ 2 * den ≤ distance num den j + num % den) := by
  have hr : num % den < den := Nat.mod_lt num hden
  obtain ⟨t, rfl⟩ : ∃ t : ℤ, j = (num / den : ℕ) + t := ⟨j - (num / den : ℕ), by ring⟩
  have hoff : distance num den ((num / den : ℕ) + t) = ((num % den : ℕ) - den * t).natAbs := by
    have hnum : (num : ℤ) = den * (num / den : ℕ) + (num % den : ℕ) := by
      exact_mod_cast (Nat.div_add_mod num den).symm
    rw [distance]
    congr 1
    linear_combination hnum
  generalize num / den = q at *
  generalize num % den = r at *
  rw [hoff]
  rcases show t ≤ -1 ∨ t = 0 ∨ t = 1 ∨ 2 ≤ t by omega with ht | rfl | rfl | ht
  · have : (den : ℤ) * t ≤ den * (-1) := mul_le_mul_of_nonneg_left ht (by omega)
    omega
  · omega
  · omega
  · have : (den : ℤ) * 2 ≤ den * t := mul_le_mul_of_nonneg_left ht (by omega)
    omega

/-- **The nearest whole number**, and of two the even one. -/
theorem roundHalfEven_nearest {num : ℕ} {j : ℤ} (hj : j ≠ roundHalfEven num den) :
    distance num den (roundHalfEven num den) ≤ distance num den j ∧
      (distance num den j = distance num den (roundHalfEven num den) →
        roundHalfEven num den % 2 = 0) := by
  have hround := distance_cases hden num (roundHalfEven num den)
  have hj' := distance_cases hden num j
  have hr : num % den < den := Nat.mod_lt num hden
  generalize hR : roundHalfEven num den = R at *
  unfold roundHalfEven at hR
  dsimp only at hR
  split_ifs at hR <;> omega

end roundHalfEven

/-! ## The nearest magnitude -/

/-- Is `m` among the whole numbers that are values in binade `k`, or below the binade? -/
def OnGrid (k : ℕ) (m : ℤ) : Prop := ((2 ^ k : ℕ) : ℤ) ∣ m ∨ 0 < k ∧ m < (2 ^ k : ℕ) * binade

/-- Every value is on the grid of every binade, and so is its mirror image. -/
theorem onGrid_of_natAbs (k : ℕ) {n : ℕ} {m : ℤ} (h : m.natAbs = unitsOfSteps n) : OnGrid k m := by
  obtain ⟨k', r, rfl, hr, hk'⟩ := exists_binade n
  rw [unitsOfSteps_add hr.le hk'] at h
  rcases le_or_gt k k' with hle | hlt
  · refine .inl (Int.natCast_dvd.2 ?_)
    rw [h]
    exact (Nat.pow_dvd_pow 2 hle).mul_left r
  · -- An earlier binade ends where binade `k` begins, or before.
    have hend : r * 2 ^ k' < 2 ^ k * binade := by
      calc r * 2 ^ k' < 2 * binade * 2 ^ k' := Nat.mul_lt_mul_of_pos_right hr (by positivity)
        _ = 2 ^ (k' + 1) * binade := by rw [pow_succ]; ring
        _ ≤ 2 ^ k * binade := Nat.mul_le_mul_right _ (Nat.pow_le_pow_right (by decide) hlt)
    have hend' : ((r * 2 ^ k' : ℕ) : ℤ) < (2 ^ k : ℕ) * binade := by exact_mod_cast hend
    exact .inr ⟨Nat.zero_lt_of_lt hlt, lt_of_le_of_lt (by omega) hend'⟩

theorem unitsOfSteps_stepsOfUnits (num den : ℕ) :
    unitsOfSteps (stepsOfUnits num den) =
      2 ^ droppedDigits num den * roundHalfEven num (den * 2 ^ droppedDigits num den) := by
  have hle := roundHalfEven_le_two_binades num den
  have hge (h : 0 < droppedDigits num den) := binade_le_roundHalfEven h
  unfold stepsOfUnits
  rw [unitsOfSteps_add hle ((Nat.eq_zero_or_pos _).imp_right hge), mul_comm, Nat.shiftLeft_eq]

/-- **The nearest magnitude.** No number on the grid is nearer to a quotient than its rounding, and
if another one is as near, the rounding has an even number of steps. -/
theorem stepsOfUnits_nearest {num den : ℕ} (hden : 0 < den) {m : ℤ}
    (hm : OnGrid (droppedDigits num den) m) (hne : m ≠ unitsOfSteps (stepsOfUnits num den)) :
    distance num den (unitsOfSteps (stepsOfUnits num den)) ≤ distance num den m ∧
      (distance num den m = distance num den (unitsOfSteps (stepsOfUnits num den)) →
        stepsOfUnits num den % 2 = 0) := by
  have hbegin (h : 0 < droppedDigits num den) := binade_le_of_droppedDigits h
  have hparity : stepsOfUnits num den % 2 =
      roundHalfEven num (den * 2 ^ droppedDigits num den) % 2 := by
    unfold stepsOfUnits
    rw [Nat.shiftLeft_eq, binade_eq]
    omega
  rw [hparity]
  rw [unitsOfSteps_stepsOfUnits] at hne ⊢
  generalize droppedDigits num den = k at *
  have hden' : 0 < den * 2 ^ k := by positivity
  rw [Nat.cast_mul] at hne ⊢
  rw [distance_mul]
  rcases hm with ⟨j, rfl⟩ | ⟨hk, hlt⟩
  · -- A value in the binade is a multiple of the size of its steps.
    rw [distance_mul]
    exact roundHalfEven_nearest hden' fun hj => hne (congrArg _ hj)
  · -- A value below the binade is farther away than the beginning of the binade.
    have hfar : distance num (den * 2 ^ k) binade < distance num den m := by
      rw [← distance_mul]
      refine distance_lt_distance hden hlt ?_
      calc (den : ℤ) * ((2 ^ k : ℕ) * binade) = (binade * (den * 2 ^ k) : ℕ) := by push_cast; ring
        _ ≤ num := by exact_mod_cast hbegin hk
    have hnear : distance num (den * 2 ^ k) (roundHalfEven num (den * 2 ^ k)) ≤
        distance num (den * 2 ^ k) binade := by
      by_cases hb : (binade : ℤ) = roundHalfEven num (den * 2 ^ k)
      · rw [hb]
      · exact (roundHalfEven_nearest hden' hb).1
    omega

end Magnitude

namespace Binary64

open Magnitude (unitsOfSteps stepsOfUnits ofUnits_steps distance OnGrid onGrid_of_natAbs
  stepsOfUnits_nearest)

/-! ## Values -/

/-- The value of a finite number. -/
def value? (x : Binary64) : Option ℚ := x.units?.map fun (i : ℤ) => (i : ℚ) / unitsInOne

theorem unitsInOne_pos : (0 : ℚ) < unitsInOne := by
  exact_mod_cast (show 0 < unitsInOne by decide)

theorem value?_eq_some_iff {x : Binary64} {r : ℚ} :
    x.value? = some r ↔ ∃ i : ℤ, x.units? = some i ∧ (i : ℚ) / unitsInOne = r := by
  rw [value?, Option.map_eq_some_iff]

theorem exists_value {x : Binary64} (h : x.isFinite = true) : ∃ r, x.value? = some r := by
  obtain ⟨i, hi⟩ := exists_units h
  exact ⟨_, value?_eq_some_iff.2 ⟨i, hi, rfl⟩⟩

/-- The factor of a sign. -/
def sign (negative : Bool) : ℤ := if negative then -1 else 1

theorem sign_mul_sign (s : Bool) : sign s * sign s = 1 := by cases s <;> rfl

theorem sign_xor (s t : Bool) : sign (s ^^ t) = sign s * sign t := by
  cases s <;> cases t <;> rfl

theorem sign_mul_inj {s : Bool} {i j : ℤ} (h : sign s * i = sign s * j) : i = j := by
  rw [← one_mul i, ← sign_mul_sign s, mul_assoc, h, ← mul_assoc, sign_mul_sign, one_mul]

theorem natAbs_sign_mul (s : Bool) (i : ℤ) : (sign s * i).natAbs = i.natAbs := by
  cases s <;> simp [sign]

theorem units?_signed {s : Bool} {m : Magnitude} (h : m.isFinite = true) :
    (signed s m).units? = some (sign s * m.units) := by
  cases s <;> simp [units?, h, sign]

/-- A finite number is a sign and a finite magnitude. -/
theorem exists_signed_of_units? {x : Binary64} {i : ℤ} (h : x.units? = some i) :
    ∃ s m, x = signed s m ∧ m.isFinite = true ∧ i = sign s * m.units := by
  have hfinite := isFinite_of_units? h
  cases x with
  | nan => cases h
  | signed s m =>
    rw [units?_signed hfinite, Option.some.injEq] at h
    exact ⟨s, m, rfl, hfinite, h.symm⟩

theorem onGrid_of_units? {x : Binary64} {i : ℤ} (h : x.units? = some i) (s : Bool) (k : ℕ) :
    OnGrid k (sign s * i) := by
  obtain ⟨s', m, -, -, rfl⟩ := exists_signed_of_units? h
  refine onGrid_of_natAbs k (n := m.steps) ?_
  rw [natAbs_sign_mul, natAbs_sign_mul]
  rfl

/-- A finite magnitude was not cut off at the infinite one. -/
theorem steps_ofUnits_of_isFinite {num den : ℕ}
    (h : (Magnitude.ofUnits num den).isFinite = true) :
    (Magnitude.ofUnits num den).steps = stepsOfUnits num den := by
  have hlt : (Magnitude.ofUnits num den).steps < infiniteSteps := of_decide_eq_true h
  rw [ofUnits_steps] at hlt ⊢
  omega

/-- Greater values belong to greater numbers. -/
theorem le_of_value_le {x y : Binary64} {a b : ℚ} (hx : x.value? = some a) (hy : y.value? = some b)
    (hab : a ≤ b) : x.le y = true := by
  obtain ⟨i, hi, rfl⟩ := value?_eq_some_iff.1 hx
  obtain ⟨j, hj, rfl⟩ := value?_eq_some_iff.1 hy
  have hij : i ≤ j := by
    exact_mod_cast (div_le_div_iff_of_pos_right unitsInOne_pos).1 hab
  have hfx := isFinite_of_units? hi
  have hfy := isFinite_of_units? hj
  obtain ⟨m, hm⟩ := exists_rank (ne_nan_of_isFinite hfx)
  obtain ⟨n, hn⟩ := exists_rank (ne_nan_of_isFinite hfy)
  refine le_iff.2 ⟨m, n, hm, hn, ?_⟩
  rw [units?_of_rank? hm hfx, Option.some.injEq] at hi
  rw [units?_of_rank? hn hfy, Option.some.injEq] at hj
  rw [← hi, ← hj] at hij
  exact (mirrored_strictMono Magnitude.unitsOfSteps_strictMono).le_iff_le.1 hij

/-! ## Rounding -/

/-- **Rounding.** The number `x` has the value `r`, no finite number is nearer to `q`, and if
another one is as near, the last binary digit of `x` is zero. -/
structure Rounds (q r : ℚ) (x : Binary64) : Prop where
  value : x.value? = some r
  nearest : ∀ (y : Binary64) (t : ℚ), y.value? = some t → |r - q| ≤ |t - q|
  even : ∀ (y : Binary64) (t : ℚ), y.value? = some t → t ≠ r → |t - q| = |r - q| → x.bits % 2 = 0

theorem bits_mod_two (s : Bool) (m : Magnitude) : (signed s m).bits % 2 = m.steps % 2 := by
  cases s
  · simp [bits]
  · simp only [bits, ↓reduceIte]
    omega

/-- The distance of a value from a quotient of units. -/
theorem abs_value_sub {num den : ℕ} (hden : 0 < den) (s : Bool) (i : ℤ) :
    |(i : ℚ) / unitsInOne - sign s * (num / den / unitsInOne)| =
      distance num den (sign s * i) / (den * unitsInOne) := by
  have hU := unitsInOne_pos
  have hD : (0 : ℚ) < den := by exact_mod_cast hden
  have hdist : (distance num den (sign s * i) : ℚ) = |(num : ℚ) - den * (sign s * i)| := by
    rw [distance, Nat.cast_natAbs]
    push_cast
    rfl
  have hsub : (i : ℚ) / unitsInOne - sign s * (num / den / unitsInOne) =
      -sign s * ((num - den * (sign s * i)) / (den * unitsInOne)) := by
    have hsign : (sign s : ℚ) * sign s = 1 := by exact_mod_cast sign_mul_sign s
    field_simp
    linear_combination -(den : ℚ) * i * hsign
  have habs : |-(sign s : ℚ)| = 1 := by cases s <;> simp [sign]
  rw [hsub, abs_mul, habs, one_mul, abs_div, abs_of_pos (mul_pos hD hU), hdist]

/-- **A quotient of units is rounded to the nearest number.** -/
theorem rounds_signed_ofUnits {s : Bool} {num den : ℕ} (hden : 0 < den) {r : ℚ}
    (hr : (signed s (.ofUnits num den)).value? = some r) :
    Rounds (sign s * (num / den / unitsInOne)) r (signed s (.ofUnits num den)) := by
  obtain ⟨u, hu, rfl⟩ := value?_eq_some_iff.1 hr
  have hfinite : (Magnitude.ofUnits num den).isFinite = true := isFinite_of_units? hu
  have hsteps := steps_ofUnits_of_isFinite hfinite
  have hself : sign s * u = unitsOfSteps (stepsOfUnits num den) := by
    rw [units?_signed hfinite, Option.some.injEq] at hu
    rw [← hu, ← mul_assoc, sign_mul_sign, one_mul, Magnitude.units, hsteps]
  have hpos : (0 : ℚ) < den * unitsInOne := mul_pos (by exact_mod_cast hden) unitsInOne_pos
  have hnearest {y : Binary64} {t : ℚ} (hy : y.value? = some t) (hne : t ≠ u / unitsInOne) :
      |(u : ℚ) / unitsInOne - sign s * (num / den / unitsInOne)| ≤
          |t - sign s * (num / den / unitsInOne)| ∧
        (|t - sign s * (num / den / unitsInOne)| =
            |(u : ℚ) / unitsInOne - sign s * (num / den / unitsInOne)| →
          (signed s (.ofUnits num den)).bits % 2 = 0) := by
    obtain ⟨i, hi, rfl⟩ := value?_eq_some_iff.1 hy
    have hne' : sign s * i ≠ unitsOfSteps (stepsOfUnits num den) := by
      rw [← hself]
      exact fun h => hne (by rw [sign_mul_inj h])
    obtain ⟨hle, heven⟩ := stepsOfUnits_nearest hden (onGrid_of_units? hi s _) hne'
    rw [abs_value_sub hden, abs_value_sub hden, hself, bits_mod_two, hsteps,
      div_le_div_iff_of_pos_right hpos, div_left_inj' hpos.ne', Nat.cast_le, Nat.cast_inj]
    exact ⟨hle, heven⟩
  refine ⟨hr, fun y t hy => ?_, fun y t hy hne => (hnearest hy hne).2⟩
  by_cases hne : t = u / unitsInOne
  · rw [hne]
  · exact (hnearest hy hne).1

theorem shiftLeft_eq_mul (n k : ℕ) : n <<< k = n * 1 <<< k := by
  rw [Nat.shiftLeft_eq, Nat.shiftLeft_eq, one_mul]

/-- **Quotients of whole numbers are rounded once.** -/
theorem rounds_ofUnits_shiftLeft {s : Bool} {num den : ℕ} (hden : 0 < den) {r : ℚ}
    (hr : (signed s (.ofUnits (num <<< 1074) den)).value? = some r) :
    Rounds (sign s * (num / den)) r (signed s (.ofUnits (num <<< 1074) den)) := by
  have hU := unitsInOne_pos
  have hD : (0 : ℚ) < den := by exact_mod_cast hden
  have hnum : num <<< 1074 = num * unitsInOne := shiftLeft_eq_mul num 1074
  convert rounds_signed_ofUnits hden hr using 1
  rw [hnum, Nat.cast_mul]
  field_simp

section arithmetic

variable {x y : Binary64} {a b r : ℚ} (hx : x.value? = some a) (hy : y.value? = some b)

include hx hy

/-- **Products are rounded once.** -/
theorem rounds_mul (hr : (x.mul y).value? = some r) : Rounds (a * b) r (x.mul y) := by
  obtain ⟨i, hi, rfl⟩ := value?_eq_some_iff.1 hx
  obtain ⟨j, hj, rfl⟩ := value?_eq_some_iff.1 hy
  obtain ⟨s, m, rfl, hm, rfl⟩ := exists_signed_of_units? hi
  obtain ⟨t, n, rfl, hn, rfl⟩ := exists_signed_of_units? hj
  have hmul : mul (signed s m) (signed t n) =
      signed (s ^^ t) (.ofUnits (m.units * n.units) unitsInOne) := by
    simp only [mul, hm, hn, Bool.and_self, ↓reduceIte, unitsInOne]
  rw [hmul] at hr ⊢
  convert rounds_signed_ofUnits (by decide) hr using 1
  rw [sign_xor]
  push_cast
  ring

/-- **Sums are rounded once.** -/
theorem rounds_add (hr : (x.add y).value? = some r) : Rounds (a + b) r (x.add y) := by
  obtain ⟨i, hi, rfl⟩ := value?_eq_some_iff.1 hx
  obtain ⟨j, hj, rfl⟩ := value?_eq_some_iff.1 hy
  obtain ⟨s, n, hadd, hn⟩ : ∃ (s : Bool) (n : ℕ), x.add y = signed s (.ofUnits n 1) ∧
      sign s * n = i + j := by
    unfold add
    rw [hi, hj]
    by_cases h0 : i + j = 0
    · refine ⟨x.isNegative && y.isNegative, 0, ?_, ?_⟩
      · simp only [h0, ↓reduceIte]
        exact congrArg _ (Magnitude.eq_of_steps (Magnitude.ofUnits_zero 1).symm)
      · simp [h0]
    · refine ⟨decide (i + j < 0), (i + j).natAbs, by simp only [h0, ↓reduceIte], ?_⟩
      by_cases hneg : i + j < 0
      · simp only [hneg, decide_true, sign, ↓reduceIte]
        omega
      · simp only [hneg, decide_false, sign, Bool.false_eq_true, ↓reduceIte]
        omega
  rw [hadd] at hr ⊢
  convert rounds_signed_ofUnits Nat.one_pos hr using 1
  rw [← add_div, ← Int.cast_add, ← hn]
  push_cast
  ring

end arithmetic

end Binary64

end GeoPartition
