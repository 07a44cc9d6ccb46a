import GeoPartition.Proofs.Binary64.Rounding
import GeoPartition.Proofs.Geo.Coordinate

/-!
# The words of the axes

Where degrees are encoded as they are, the scaled axis runs from 1 up to but not including 2. There
the exponent is the same throughout, so the word of an axis is the upper part of the fraction, and
more degrees never have a smaller word.
-/

namespace GeoPartition.Geohash

open Binary64

set_option maxRecDepth 2000

theorem word_lt (axis : Axis) (v : Binary64) : word axis v < 2 ^ 32 := by
  unfold word
  exact Nat.mod_lt _ (by decide)

/-! ## The scaled axis -/

section scaled

variable {axis : Axis} {v w : Binary64}

theorem scale_isFinite (axis : Axis) : (scale axis).isFinite = true := by
  cases axis <;> decide

theorem zero_le_scale (axis : Axis) : zero.le (scale axis) = true := by
  cases axis <;> decide

theorem middle_isFinite : middle.isFinite = true := by decide

theorem mul_scale_floor_isFinite (axis : Axis) : (axis.floor.mul (scale axis)).isFinite = true := by
  cases axis <;> decide

theorem mul_scale_ceiling_isFinite (axis : Axis) :
    (axis.ceiling.mul (scale axis)).isFinite = true := by
  cases axis <;> decide

theorem isFinite_of_encodes (h : axis.Encodes v) : v.isFinite = true :=
  isFinite_of_le_of_le h.1 h.2 axis.floor_isFinite axis.ceiling_isFinite

theorem mul_scale_le_mul_scale (hv : axis.Encodes v) (hw : axis.Encodes w)
    (h : v.le w = true) : (v.mul (scale axis)).le (w.mul (scale axis)) = true :=
  mul_le_mul_right h (isFinite_of_encodes hv) (isFinite_of_encodes hw) (scale_isFinite axis)
    (zero_le_scale axis)

theorem encodes_floor (axis : Axis) : axis.Encodes axis.floor :=
  ⟨le_refl (ne_nan_of_isFinite axis.floor_isFinite), axis.floor_le_ceiling⟩

theorem encodes_ceiling (axis : Axis) : axis.Encodes axis.ceiling :=
  ⟨axis.floor_le_ceiling, le_refl (ne_nan_of_isFinite axis.ceiling_isFinite)⟩

theorem mul_scale_isFinite (hv : axis.Encodes v) : (v.mul (scale axis)).isFinite = true :=
  isFinite_of_le_of_le (mul_scale_le_mul_scale (encodes_floor axis) hv hv.1)
    (mul_scale_le_mul_scale hv (encodes_ceiling axis) hv.2) (mul_scale_floor_isFinite axis)
    (mul_scale_ceiling_isFinite axis)

theorem scaled_le_scaled (hv : axis.Encodes v) (hw : axis.Encodes w) (h : v.le w = true) :
    (scaled axis v).le (scaled axis w) = true :=
  add_le_add_right (mul_scale_le_mul_scale hv hw h) (mul_scale_isFinite hv)
    (mul_scale_isFinite hw) middle_isFinite

/-! ## The ends of the scaled axis -/

/-- The scaled axis starts at 1. -/
theorem one_le_scaled_floor (axis : Axis) :
    (Binary64.ofNat 1).le (scaled axis axis.floor) = true := by
  cases axis <;> decide

/-- The margin keeps the scaled axis below 2, where the exponent would change. -/
theorem scaled_ceiling_lt_two (axis : Axis) :
    (scaled axis axis.ceiling).lt (Binary64.ofNat 2) = true := by
  cases axis <;> decide

theorem rank?_one : (Binary64.ofNat 1).rank? = some (1023 * 2 ^ 52) := by decide

theorem rank?_two : (Binary64.ofNat 2).rank? = some (1024 * 2 ^ 52) := by decide

/-- The rank of scaled degrees is that of a number from 1 up to 2. -/
theorem exists_rank_scaled (hv : axis.Encodes v) :
    ∃ i, (scaled axis v).rank? = some i ∧ 1023 * 2 ^ 52 ≤ i ∧ i < 1024 * 2 ^ 52 := by
  have hlo := le_trans (one_le_scaled_floor axis)
    (scaled_le_scaled (encodes_floor axis) hv hv.1)
  have hhi := scaled_le_scaled hv (encodes_ceiling axis) hv.2
  obtain ⟨i, hi⟩ := exists_rank (ne_nan_of_le_right hlo)
  obtain ⟨j, k, hj, hk, hjk⟩ := lt_iff.1 (scaled_ceiling_lt_two axis)
  obtain rfl : 1024 * 2 ^ 52 = k := Option.some.inj (rank?_two.symm.trans hk)
  refine ⟨i, hi, ?_, ?_⟩
  · simpa [le, rank?_one, hi] using hlo
  · have : i ≤ j := by simpa [le, hi, hj] using hhi
    omega

theorem bits_of_rank? {x : Binary64} {i : ℤ} (h : x.rank? = some i) (hi : 0 < i) :
    (x.bits : ℤ) = i := by
  cases x with
  | nan => cases h
  | signed s m =>
    obtain rfl := Option.some.inj h
    cases s with
    | false => simp [bits]
    | true => simp only [↓reduceIte] at hi; omega

/-- The word is the upper part of the fraction. -/
theorem exists_fraction (hv : axis.Encodes v) :
    ∃ f < 2 ^ 52, (scaled axis v).rank? = some ((1023 * 2 ^ 52 + f : ℕ) : ℤ) ∧
      word axis v = f / 2 ^ 20 := by
  obtain ⟨i, hi, hi1, hi2⟩ := exists_rank_scaled hv
  obtain ⟨f, rfl⟩ : ∃ f : ℕ, i = ((1023 * 2 ^ 52 + f : ℕ) : ℤ) :=
    ⟨(i - 1023 * 2 ^ 52).toNat, by omega⟩
  have hbits := bits_of_rank? hi (by omega)
  refine ⟨f, by omega, hi, ?_⟩
  unfold word
  simp only [Nat.shiftRight_eq_div_pow, Nat.shiftLeft_eq, one_mul]
  -- The bit pattern starts with the exponent of 1, which the remainder takes away.
  omega

/-- More degrees never have a smaller word. -/
theorem word_le_word (hv : axis.Encodes v) (hw : axis.Encodes w) (h : v.le w = true) :
    word axis v ≤ word axis w := by
  obtain ⟨f, -, hf, hfword⟩ := exists_fraction hv
  obtain ⟨g, -, hg, hgword⟩ := exists_fraction hw
  have hfg : f ≤ g := by simpa [le, hf, hg] using scaled_le_scaled hv hw h
  rw [hfword, hgword]
  exact Nat.div_le_div_right hfg

end scaled

end GeoPartition.Geohash
