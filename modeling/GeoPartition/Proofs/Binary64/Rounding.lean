import GeoPartition.Proofs.Binary64.Order
import GeoPartition.Binary64.Arithmetic

/-!
# Rounding keeps the order

**Magnitudes.** A quotient of units is rounded on a grid whose step doubles from one binade to the
next. Within a binade a larger quotient rounds no lower, and the roundings of a binade end where
those of the next one begin.

**Sums and products.** The rank of a sum or a product is the mirrored rounding of the exact result,
so adding a number, or multiplying by one that is not negative, keeps the order.
-/

namespace GeoPartition

theorem binade_eq : binade = 2 ^ 52 := rfl

theorem mod_le_mod_of_div_eq {m n d : ℕ} (hmn : m ≤ n) (hq : m / d = n / d) : m % d ≤ n % d := by
  have hm := Nat.div_add_mod m d
  have hn := Nat.div_add_mod n d
  rw [hq] at hm
  omega

/-! ## The nearest whole number -/

theorem div_le_roundHalfEven (num den : ℕ) : num / den ≤ roundHalfEven num den := by
  unfold roundHalfEven
  dsimp only
  split_ifs <;> omega

theorem roundHalfEven_le (num den : ℕ) : roundHalfEven num den ≤ num / den + 1 := by
  unfold roundHalfEven
  dsimp only
  split_ifs <;> omega

theorem roundHalfEven_mono (den : ℕ) : Monotone (roundHalfEven · den) := by
  intro m n hmn
  show roundHalfEven m den ≤ roundHalfEven n den
  rcases (Nat.div_le_div_right (c := den) hmn).lt_or_eq with hq | hq
  · exact (roundHalfEven_le m den).trans ((Nat.succ_le_of_lt hq).trans (div_le_roundHalfEven n den))
  · -- The quotients agree, so the remainders are in the order of the numbers.
    have hr : m % den ≤ n % den := mod_le_mod_of_div_eq hmn hq
    unfold roundHalfEven
    simp only [hq]
    split_ifs <;> omega

namespace Magnitude

/-! ## Steps and units -/

theorem unitsOfSteps_zero : unitsOfSteps 0 = 0 := by decide

/-- Every number of steps lies in a binade, of which the first also has the steps below it. -/
theorem exists_binade (n : ℕ) :
    ∃ k r, n = k * binade + r ∧ r < 2 * binade ∧ (k = 0 ∨ binade ≤ r) := by
  have hB : 0 < binade := by decide
  by_cases hn : n < binade
  · exact ⟨0, n, by omega, by omega, .inl rfl⟩
  · have hdiv : 1 ≤ n / binade := (Nat.one_le_div_iff hB).2 (Nat.not_lt.1 hn)
    have hmod : n % binade < binade := Nat.mod_lt n hB
    refine ⟨n / binade - 1, n % binade + binade, ?_, by omega, .inr (by omega)⟩
    have hn' := Nat.div_add_mod' n binade
    have hle : binade ≤ n / binade * binade := Nat.le_mul_of_pos_left _ hdiv
    rw [Nat.sub_mul, Nat.one_mul]
    omega

/-- **In binade `k`** each step is `2^k` units. -/
theorem unitsOfSteps_add {k r : ℕ} (hr : r ≤ 2 * binade) (h : k = 0 ∨ binade ≤ r) :
    unitsOfSteps (k * binade + r) = r * 2 ^ k := by
  have hB : 0 < binade := by decide
  unfold unitsOfSteps
  rcases hr.lt_or_eq with hr | rfl
  · by_cases hlt : r < binade
    · obtain rfl : k = 0 := h.resolve_right (Nat.not_le.2 hlt)
      simp [hlt]
    · obtain ⟨s, rfl⟩ := Nat.exists_eq_add_of_le (Nat.not_lt.1 hlt)
      have hs : s < binade := by omega
      have hsum : k * binade + (binade + s) = binade * (k + 1) + s := by ring
      rw [if_neg (by rw [hsum, Nat.mul_add]; omega), hsum, Nat.mul_add_mod, Nat.mod_eq_of_lt hs,
        Nat.mul_add_div hB, Nat.div_eq_of_lt hs, Nat.shiftLeft_eq]
      rfl
  · -- The end of a binade is the beginning of the next one.
    have hsum : k * binade + 2 * binade = binade * (k + 2) := by ring
    rw [if_neg (by rw [hsum, Nat.mul_add]; omega), hsum, Nat.mul_mod_right,
      Nat.mul_div_cancel_left _ hB, Nat.shiftLeft_eq, show k + 2 - 1 = k + 1 by omega, pow_succ]
    ring

theorem unitsOfSteps_strictMono : StrictMono unitsOfSteps := by
  apply strictMono_nat_of_lt_succ
  intro n
  obtain ⟨k, r, rfl, hr, hk⟩ := exists_binade n
  have hk' : k = 0 ∨ binade ≤ r + 1 := hk.imp_right fun h => h.trans (Nat.le_succ r)
  rw [Nat.add_assoc, unitsOfSteps_add hr.le hk, unitsOfSteps_add hr hk']
  exact Nat.mul_lt_mul_of_pos_right (Nat.lt_succ_self r) (by positivity)

theorem unitsOfSteps_mono : Monotone unitsOfSteps := unitsOfSteps_strictMono.monotone

/-! ## Rounding to a magnitude -/

/-- The steps of a rounded quotient before those past infinity are cut off. -/
def stepsOfUnits (num den : ℕ) : ℕ :=
  droppedDigits num den * binade + roundHalfEven num (den <<< droppedDigits num den)

theorem ofUnits_steps (num den : ℕ) :
    (ofUnits num den).steps = min (stepsOfUnits num den) infiniteSteps := rfl

theorem droppedDigits_mono (den : ℕ) : Monotone (droppedDigits · den) := by
  intro m n hmn
  show (m / den).log2 - 52 ≤ (n / den).log2 - 52
  rw [Nat.log2_eq_log_two, Nat.log2_eq_log_two]
  have := Nat.log_mono_right (b := 2) (Nat.div_le_div_right (c := den) hmn)
  omega

theorem roundHalfEven_le_two_binades (num den : ℕ) :
    roundHalfEven num (den <<< droppedDigits num den) ≤ 2 * binade := by
  refine (roundHalfEven_le _ _).trans ?_
  have hlt : num / den < 2 ^ (droppedDigits num den + 53) :=
    Nat.lt_log2_self.trans_le (Nat.pow_le_pow_right (by decide) (by unfold droppedDigits; omega))
  rw [Nat.shiftLeft_eq, ← Nat.div_div_eq_div_mul, binade_eq]
  have := Nat.div_lt_of_lt_mul (show num / den < 2 ^ droppedDigits num den * 2 ^ 53 by
    rwa [← pow_add])
  omega

/-- The binade to which a quotient is rounded begins at the quotient or before. -/
theorem binade_le_of_droppedDigits {num den : ℕ} (h : 0 < droppedDigits num den) :
    binade * (den * 2 ^ droppedDigits num den) ≤ num := by
  unfold droppedDigits at h ⊢
  have hlog : (num / den).log2 = 52 + ((num / den).log2 - 52) := by omega
  have hne : num / den ≠ 0 := by
    intro h0
    rw [h0] at h
    simp at h
  have hle := Nat.log2_self_le hne
  rw [hlog, pow_add, ← binade_eq] at hle
  calc binade * (den * 2 ^ ((num / den).log2 - 52))
      = binade * 2 ^ ((num / den).log2 - 52) * den := by ring
    _ ≤ num := Nat.mul_le_of_le_div _ _ _ hle

theorem binade_le_roundHalfEven {num den : ℕ} (h : 0 < droppedDigits num den) :
    binade ≤ roundHalfEven num (den <<< droppedDigits num den) := by
  have hden : 0 < den := by
    rcases Nat.eq_zero_or_pos den with rfl | hden
    · simp [droppedDigits] at h
    · exact hden
  refine le_trans ?_ (div_le_roundHalfEven _ _)
  rw [Nat.shiftLeft_eq]
  exact (Nat.le_div_iff_mul_le (by positivity)).2 (binade_le_of_droppedDigits h)

theorem stepsOfUnits_mono (den : ℕ) : Monotone (stepsOfUnits · den) := by
  intro m n hmn
  show stepsOfUnits m den ≤ stepsOfUnits n den
  have hk : droppedDigits m den ≤ droppedDigits n den := droppedDigits_mono den hmn
  unfold stepsOfUnits
  rcases hk.lt_or_eq with hk | hk
  · calc droppedDigits m den * binade + roundHalfEven m (den <<< droppedDigits m den)
        ≤ droppedDigits m den * binade + 2 * binade :=
          Nat.add_le_add_left (roundHalfEven_le_two_binades m den) _
      _ = (droppedDigits m den + 1) * binade + binade := by ring
      _ ≤ droppedDigits n den * binade + binade :=
          Nat.add_le_add_right (Nat.mul_le_mul_right _ hk) _
      _ ≤ _ := Nat.add_le_add_left (binade_le_roundHalfEven (Nat.zero_lt_of_lt hk)) _
  · rw [hk]
    exact Nat.add_le_add_left (roundHalfEven_mono _ hmn) _

theorem ofUnits_mono (den : ℕ) : Monotone fun num => (ofUnits num den).steps := by
  intro m n hmn
  simp only [ofUnits_steps]
  exact min_le_min_right _ (stepsOfUnits_mono den hmn)

theorem ofUnits_zero (den : ℕ) : (ofUnits 0 den).steps = 0 := by
  simp [ofUnits_steps, stepsOfUnits, droppedDigits, roundHalfEven]

end Magnitude

namespace Binary64

open Magnitude (unitsOfSteps)

/-! ## Values and ranks -/

theorem units?_of_rank? {x : Binary64} {i : ℤ} (h : x.rank? = some i) (hf : x.isFinite = true) :
    x.units? = some (mirrored unitsOfSteps i) := by
  cases x with
  | nan => cases h
  | signed s m =>
    simp only [rank?, Option.some.injEq] at h
    simp only [isFinite] at hf
    rw [← h, mirrored_signed Magnitude.unitsOfSteps_zero]
    simp [units?, hf, Magnitude.units]

theorem units?_zero : zero.units? = some 0 := by decide

theorem exists_units {x : Binary64} (h : x.isFinite = true) : ∃ i, x.units? = some i := by
  obtain ⟨i, hi⟩ := exists_rank (ne_nan_of_isFinite h)
  exact ⟨_, units?_of_rank? hi h⟩

/-- The values of finite numbers are in the order of the numbers. -/
theorem exists_units_le {x y : Binary64} (h : x.le y = true) (hx : x.isFinite = true)
    (hy : y.isFinite = true) : ∃ i j, x.units? = some i ∧ y.units? = some j ∧ i ≤ j := by
  obtain ⟨i, j, hi, hj, hij⟩ := le_iff.1 h
  exact ⟨_, _, units?_of_rank? hi hx, units?_of_rank? hj hy,
    mirrored_mono Magnitude.unitsOfSteps_mono hij⟩

theorem isFinite_of_units? {x : Binary64} {i : ℤ} (h : x.units? = some i) : x.isFinite = true := by
  cases x with
  | nan => cases h
  | signed s m =>
    by_contra hf
    simp [units?, show m.isFinite = false by simpa [isFinite] using hf] at h

/-- The steps of a rounded quotient of units as a function of the numerator. -/
def roundedRank (den : ℕ) : ℤ → ℤ := mirrored fun num => (Magnitude.ofUnits num den).steps

theorem roundedRank_mono (den : ℕ) : Monotone (roundedRank den) :=
  mirrored_mono (Magnitude.ofUnits_mono den)

theorem rank?_signed_ofUnits (s : Bool) (num den : ℕ) :
    (signed s (.ofUnits num den)).rank? =
      some (roundedRank den (if s then -(num : ℤ) else num)) := by
  rw [roundedRank, mirrored_signed (Magnitude.ofUnits_zero den)]
  rfl

/-! ## Sums -/

theorem rank?_add {x y : Binary64} {i j : ℤ} (hx : x.units? = some i) (hy : y.units? = some j) :
    (x.add y).rank? = some (roundedRank 1 (i + j)) := by
  unfold add
  rw [hx, hy]
  by_cases h0 : i + j = 0
  · simp [h0, rank?, roundedRank, mirrored, Magnitude.zero, Magnitude.ofUnits_zero]
  · simp only [h0, ↓reduceIte, rank?_signed_ofUnits]
    congr 2
    by_cases hn : i + j < 0
    · simp only [hn, decide_true, ↓reduceIte]
      omega
    · simp only [hn, decide_false, Bool.false_eq_true, ↓reduceIte]
      omega

theorem add_le_add_right {x y c : Binary64} (h : x.le y = true) (hx : x.isFinite = true)
    (hy : y.isFinite = true) (hc : c.isFinite = true) : (x.add c).le (y.add c) = true := by
  obtain ⟨i, j, hi, hj, hij⟩ := exists_units_le h hx hy
  obtain ⟨k, hk⟩ := exists_units hc
  exact le_iff.2 ⟨_, _, rank?_add hi hk, rank?_add hj hk, roundedRank_mono 1 (by omega)⟩

/-! ## Products -/

/-- The number of units in one. -/
def unitsInOne : ℕ := 1 <<< 1074

theorem rank?_mul {x y : Binary64} {i j : ℤ} (hx : x.units? = some i) (hy : y.units? = some j) :
    (x.mul y).rank? = some (roundedRank unitsInOne (i * j)) := by
  have hfx := isFinite_of_units? hx
  have hfy := isFinite_of_units? hy
  cases x with
  | nan => cases hx
  | signed s m =>
    cases y with
    | nan => cases hy
    | signed t n =>
      simp only [isFinite] at hfx hfy
      simp only [units?, hfx, hfy, ↓reduceIte, Option.some.injEq] at hx hy
      have hmul : mul (signed s m) (signed t n) =
          signed (s ^^ t) (.ofUnits (m.units * n.units) unitsInOne) := by
        simp only [mul, hfx, hfy, Bool.and_self, ↓reduceIte, unitsInOne]
      rw [hmul, rank?_signed_ofUnits, ← hx, ← hy]
      congr 2
      cases s <;> cases t <;> push_cast <;> simp

theorem mul_le_mul_right {x y c : Binary64} (h : x.le y = true) (hx : x.isFinite = true)
    (hy : y.isFinite = true) (hc : c.isFinite = true) (h0 : zero.le c = true) :
    (x.mul c).le (y.mul c) = true := by
  obtain ⟨i, j, hi, hj, hij⟩ := exists_units_le h hx hy
  obtain ⟨z, k, hz, hk, hzk⟩ := exists_units_le h0 rfl hc
  obtain rfl : z = 0 := by simpa [units?_zero] using hz.symm
  exact le_iff.2 ⟨_, _, rank?_mul hi hk, rank?_mul hj hk,
    roundedRank_mono unitsInOne (Int.mul_le_mul_of_nonneg_right hij hzk)⟩

end Binary64

end GeoPartition
