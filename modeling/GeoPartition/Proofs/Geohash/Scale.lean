import GeoPartition.Proofs.Binary64.Nearest
import GeoPartition.Proofs.Geohash.Word

/-!
# Scaled degrees do not wrap

The word of an axis is cut out of the bit pattern of the scaled degrees, so it is a number of
degrees only as long as the exponent stays that of 1. Both factors are rounded upward, and the upper
limit of an axis is scaled to 2, where the word starts again from zero.

**Theorem (`clamp_prevents_wrap`).** The degrees of a valid coordinate, clamped, are scaled to a
value from 1 up to but not including 2. Their word is the fraction of that value cut to 32 binary
digits. It never falls when the degrees rise, and runs from the least word at the lower limit to the
greatest at the upper one.

Rounding keeps the order, so only the two ends of the clamped axis are scaled to see that nothing
leaves the interval. There a step is one of `2^52` parts of 1 and the bit pattern counts the steps,
so its digits are those of the value.
-/

namespace GeoPartition

open Binary64

/-! ## Values from one up to two -/

namespace Binary64

open Magnitude (unitsOfSteps unitsOfSteps_add)

theorem one_shiftLeft_add (m n : ℕ) : 1 <<< (m + n) = 2 ^ m * 2 ^ n := by
  rw [Nat.shiftLeft_eq, one_mul, pow_add]

/-- From one up to two, a step is one of `2^52` parts of one. -/
theorem unitsOfSteps_aboveOne {f : ℕ} (hf : f < 2 ^ 52) :
    unitsOfSteps (1023 * 2 ^ 52 + f) * 2 ^ 52 = (2 ^ 52 + f) * unitsInOne := by
  have hsum : 1023 * 2 ^ 52 + f = 1022 * binade + (binade + f) := by rw [binade_eq]; omega
  have hone : unitsInOne = 2 ^ 1022 * 2 ^ 52 := one_shiftLeft_add 1022 52
  rw [hsum, unitsOfSteps_add (by rw [binade_eq]; omega) (.inr (Nat.le_add_right _ _)), binade_eq,
    hone, mul_assoc]

theorem value?_of_rank? {x : Binary64} {f : ℕ} (hf : f < 2 ^ 52)
    (h : x.rank? = some ((1023 * 2 ^ 52 + f : ℕ) : ℤ)) :
    x.value? = some ((1 : ℚ) + f / 2 ^ 52) := by
  have hfinite : x.isFinite = true := by
    refine isFinite_iff.2 ⟨_, h, ?_⟩
    rw [infiniteSteps, binade_eq, Int.natAbs_natCast]
    omega
  have hmirrored : mirrored unitsOfSteps ((1023 * 2 ^ 52 + f : ℕ) : ℤ) =
      unitsOfSteps (1023 * 2 ^ 52 + f) :=
    mirrored_signed Magnitude.unitsOfSteps_zero false _
  have hunits : (unitsOfSteps (1023 * 2 ^ 52 + f) : ℚ) * 2 ^ 52 = (2 ^ 52 + f) * unitsInOne := by
    exact_mod_cast unitsOfSteps_aboveOne hf
  refine value?_eq_some_iff.2 ⟨_, units?_of_rank? h hfinite, ?_⟩
  rw [hmirrored, Int.cast_natCast, div_eq_iff unitsInOne_pos.ne']
  linear_combination (1 / 2 ^ 52 : ℚ) * hunits

/-- The value of a whole number. -/
theorem value?_of_units? {x : Binary64} {m : ℤ} (h : x.units? = some (m * unitsInOne)) :
    x.value? = some (m : ℚ) := by
  refine value?_eq_some_iff.2 ⟨_, h, ?_⟩
  rw [Int.cast_mul, Int.cast_natCast, mul_div_cancel_right₀ _ unitsInOne_pos.ne']

end Binary64

/-! ## The axes -/

namespace Axis

/-- One over the width of an axis in degrees, to sixteen digits. -/
def factor : Axis → ℚ
  | longitude => 0.002777777777777778
  | latitude => 0.005555555555555556

set_option maxRecDepth 2000

theorem value?_limit (axis : Axis) :
    (Binary64.ofNat axis.limit).value? = some (axis.limit : ℚ) := by
  have hunits : (Binary64.ofNat axis.limit).units? = some (axis.limit * unitsInOne) := by
    cases axis <;> decide
  exact_mod_cast value?_of_units? hunits

theorem value?_floor (axis : Axis) : axis.floor.value? = some (-axis.limit : ℚ) := by
  have hunits : axis.floor.units? = some (-(axis.limit : ℤ) * unitsInOne) := by
    cases axis <;> decide
  exact_mod_cast value?_of_units? hunits

end Axis

namespace Coordinate

/-- The degrees on an axis. -/
def on (c : Coordinate) : Axis → Binary64
  | .longitude => c.lon
  | .latitude => c.lat

theorem checkAxis_on {c : Coordinate} (h : c.check = .ok ()) (axis : Axis) :
    checkAxis axis (c.on axis) = .ok () := by
  obtain ⟨hlon, hlat⟩ := check_ok_iff.1 h
  cases axis with
  | longitude => exact hlon
  | latitude => exact hlat

theorem on_clamp (c : Coordinate) (axis : Axis) : c.clamp.on axis = axis.clamp (c.on axis) := by
  cases axis <;> rfl

end Coordinate

namespace Geohash

/-! ## Scaling -/

set_option maxRecDepth 2000

theorem scale_eq (axis : Axis) :
    ∃ digits : ℕ, scale axis = signed false (.ofUnits (digits <<< 1074) (10 ^ 18)) ∧
      axis.factor = digits / 10 ^ 18 := by
  cases axis with
  | longitude => exact ⟨2777777777777778, by decide, by norm_num [Axis.factor]⟩
  | latitude => exact ⟨5555555555555556, by decide, by norm_num [Axis.factor]⟩

/-- The scale of an axis is the number nearest to its factor. -/
theorem exists_rounds_scale (axis : Axis) : ∃ s, Rounds axis.factor s (scale axis) := by
  obtain ⟨s, hs⟩ := exists_value (scale_isFinite axis)
  obtain ⟨digits, hscale, hfactor⟩ := scale_eq axis
  refine ⟨s, ?_⟩
  rw [hscale] at hs ⊢
  convert rounds_ofUnits_shiftLeft (by decide) hs using 1
  rw [hfactor]
  norm_num [sign]

theorem value?_middle : middle.value? = some (3 / 2) := by
  rw [value?_of_rank? (f := 2 ^ 51) (by decide) (by decide)]
  norm_num

/-- **Scaling.** The degrees `v` are scaled to `q`, with the product and the sum rounded once each;
`q` is at least 1 and below 2, and its fraction, cut to 32 binary digits, is the word. -/
structure ScalesTo (axis : Axis) (v : Binary64) (q : ℚ) : Prop where
  rounded : ∃ d s p, v.value? = some d ∧ Rounds axis.factor s (scale axis) ∧
    Rounds (d * s) p (v.mul (scale axis)) ∧ Rounds (p + 3 / 2) q (scaled axis v)
  one_le : 1 ≤ q
  lt_two : q < 2
  word_eq : (word axis v : ℤ) = ⌊(q - 1) * 2 ^ 32⌋

theorem exists_scalesTo {axis : Axis} {v : Binary64} (hv : axis.Encodes v) :
    ∃ q, ScalesTo axis v q := by
  obtain ⟨f, hf, hrank, hword⟩ := exists_fraction hv
  have hq := value?_of_rank? hf hrank
  obtain ⟨d, hd⟩ := exists_value (isFinite_of_encodes hv)
  obtain ⟨s, hs⟩ := exists_rounds_scale axis
  obtain ⟨p, hp⟩ := exists_value (mul_scale_isFinite hv)
  have hf' : (f : ℚ) < 2 ^ 52 := by exact_mod_cast hf
  refine ⟨_, ⟨d, s, p, hd, hs, rounds_mul hd hs.value hp, rounds_add hp value?_middle hq⟩,
    ?_, ?_, ?_⟩
  · have : (0 : ℚ) ≤ f / 2 ^ 52 := by positivity
    linarith
  · have : (f : ℚ) / 2 ^ 52 < 1 := (div_lt_one (by positivity)).2 hf'
    linarith
  · have hcut : ((1 : ℚ) + f / 2 ^ 52 - 1) * 2 ^ 32 = (f : ℚ) / (2 ^ 20 : ℕ) := by
      push_cast
      ring
    rw [hcut, Rat.floor_natCast_div_natCast, hword, Int.natCast_div]

/-! ## The clamp -/

theorem word_floor (axis : Axis) : word axis (axis.clamp axis.floor) = 0 := by
  cases axis <;> decide

theorem word_clamp_limit (axis : Axis) :
    word axis (axis.clamp (Binary64.ofNat axis.limit)) = 2 ^ 32 - 1 := by
  cases axis <;> decide

/-- Without the clamp, the upper limit is where the lower one is. -/
theorem word_limit (axis : Axis) : word axis (Binary64.ofNat axis.limit) = 0 := by
  cases axis <;> decide

theorem word_clamp_le_word_clamp {axis : Axis} {v w : Binary64} {d e : ℚ}
    (hv : Coordinate.checkAxis axis v = .ok ()) (hw : Coordinate.checkAxis axis w = .ok ())
    (hd : v.value? = some d) (he : w.value? = some e) (hde : d ≤ e) :
    word axis (axis.clamp v) ≤ word axis (axis.clamp w) :=
  word_le_word (Axis.encodes_clamp hv) (Axis.encodes_clamp hw)
    (Axis.clamp_le_clamp (le_of_value_le hd he hde))

section ends

variable {axis : Axis} {v : Binary64} (hv : Coordinate.checkAxis axis v = .ok ())
include hv

theorem word_clamp_eq_zero (h : v.value? = some (-axis.limit : ℚ)) :
    word axis (axis.clamp v) = 0 := by
  have hfloor : Coordinate.checkAxis axis axis.floor = .ok () := by cases axis <;> decide
  have hle := word_clamp_le_word_clamp hv hfloor h axis.value?_floor le_rfl
  rw [word_floor] at hle
  exact Nat.le_zero.1 hle

theorem word_clamp_eq_max (h : v.value? = some (axis.limit : ℚ)) :
    word axis (axis.clamp v) = 2 ^ 32 - 1 := by
  have hlimit : Coordinate.checkAxis axis (Binary64.ofNat axis.limit) = .ok () := by
    cases axis <;> decide
  have hle := word_clamp_le_word_clamp hlimit hv axis.value?_limit h le_rfl
  rw [word_clamp_limit] at hle
  exact le_antisymm (Nat.le_pred_of_lt (word_lt axis _)) hle

end ends

/-- **The clamp prevents wrapping.** On either axis the clamped degrees of a valid coordinate are
scaled to a value from 1 up to 2, of which the word is the fraction. The word never falls as the
degrees rise, and is the least at the lower limit and the greatest at the upper one, where it is the
least again without the clamp. -/
theorem clamp_prevents_wrap (axis : Axis) :
    (∀ c : Coordinate, c.check = .ok () → ∃ q, ScalesTo axis (c.clamp.on axis) q) ∧
    (∀ a b : Coordinate, ∀ d e : ℚ, a.check = .ok () → b.check = .ok () →
      (a.on axis).value? = some d → (b.on axis).value? = some e → d ≤ e →
      word axis (a.clamp.on axis) ≤ word axis (b.clamp.on axis)) ∧
    (∀ c : Coordinate, c.check = .ok () → (c.on axis).value? = some (-axis.limit : ℚ) →
      word axis (c.clamp.on axis) = 0) ∧
    (∀ c : Coordinate, c.check = .ok () → (c.on axis).value? = some (axis.limit : ℚ) →
      word axis (c.clamp.on axis) = 2 ^ 32 - 1) ∧
    word axis (Binary64.ofNat axis.limit) = 0 := by
  refine ⟨fun c hc => ?_, fun a b d e ha hb hd he hde => ?_, fun c hc hlo => ?_,
    fun c hc hhi => ?_, word_limit axis⟩
  · rw [c.on_clamp]
    exact exists_scalesTo (Axis.encodes_clamp (Coordinate.checkAxis_on hc axis))
  · rw [a.on_clamp, b.on_clamp]
    exact word_clamp_le_word_clamp (Coordinate.checkAxis_on ha axis)
      (Coordinate.checkAxis_on hb axis) hd he hde
  · rw [c.on_clamp]
    exact word_clamp_eq_zero (Coordinate.checkAxis_on hc axis) hlo
  · rw [c.on_clamp]
    exact word_clamp_eq_max (Coordinate.checkAxis_on hc axis) hhi

/-- At the upper corner of the world both words are the greatest, at the lower one the least. -/
theorem clamp_prevents_wrap_corners :
    (∀ axis, ∃ q, ScalesTo axis ((Coordinate.mk (.ofNat 180) (.ofNat 90)).clamp.on axis) q) ∧
    (∀ axis, word axis ((Coordinate.mk (.ofNat 180) (.ofNat 90)).clamp.on axis) = 2 ^ 32 - 1) ∧
    (∀ axis, word axis ((Coordinate.mk Axis.longitude.floor Axis.latitude.floor).clamp.on axis) =
      0) ∧
    ∀ axis, word axis ((Coordinate.mk Axis.longitude.floor Axis.latitude.floor).clamp.on axis) ≤
      word axis ((Coordinate.mk (.ofNat 180) (.ofNat 90)).clamp.on axis) := by
  have hupper : (Coordinate.mk (.ofNat 180) (.ofNat 90)).check = .ok () := by decide
  have hlower : (Coordinate.mk Axis.longitude.floor Axis.latitude.floor).check = .ok () := by
    decide
  have honUpper (axis : Axis) : ((Coordinate.mk (.ofNat 180) (.ofNat 90)).on axis).value? =
      some (axis.limit : ℚ) := by
    cases axis with
    | longitude => exact Axis.longitude.value?_limit
    | latitude => exact Axis.latitude.value?_limit
  have honLower (axis : Axis) :
      ((Coordinate.mk Axis.longitude.floor Axis.latitude.floor).on axis).value? =
        some (-axis.limit : ℚ) := by
    cases axis with
    | longitude => exact Axis.longitude.value?_floor
    | latitude => exact Axis.latitude.value?_floor
  refine ⟨fun axis => (clamp_prevents_wrap axis).1 _ hupper,
    fun axis => (clamp_prevents_wrap axis).2.2.2.1 _ hupper (honUpper axis),
    fun axis => (clamp_prevents_wrap axis).2.2.1 _ hlower (honLower axis), fun axis => ?_⟩
  have hle : -(axis.limit : ℚ) ≤ axis.limit := by
    have : (0 : ℚ) ≤ axis.limit := Nat.cast_nonneg _
    linarith
  exact (clamp_prevents_wrap axis).2.1 _ _ _ _ hlower hupper (honLower axis) (honUpper axis) hle

end Geohash

end GeoPartition
