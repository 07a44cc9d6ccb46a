import Mathlib
import GeoPartition.Geohash.Code

/-!
# Interleaved words

Bit `2 i + 1` of an interleaving is bit `i` of the first word, and bit `2 i` is bit `i` of the
second. So the upper part of an interleaving, cut anywhere, is made of the upper parts of the two
words.

**Betweenness (`interleave_shiftRight_between`).** If two pairs of words, the second above the first
on both axes, share the upper part of their interleavings, then all pairs between them share it.
-/

namespace GeoPartition.Geohash

/-! ## Bits -/

theorem testBit_interleave (n i a b : ℕ) :
    (interleave n a b).testBit (2 * i + 1) = (decide (i < n) && a.testBit i) ∧
      (interleave n a b).testBit (2 * i) = (decide (i < n) && b.testBit i) := by
  induction n generalizing i a b with
  | zero => simp [interleave]
  | succ n ih =>
    simp only [interleave]
    set x := interleave n (a / 2) (b / 2)
    have h1 : (4 * x + 2 * (a % 2) + b % 2) / 2 = 2 * x + a % 2 := by omega
    have h2 : (2 * x + a % 2) / 2 = x := by omega
    cases i with
    | zero =>
      have h0 : (4 * x + 2 * (a % 2) + b % 2) % 2 = b % 2 := by omega
      refine ⟨?_, ?_⟩
      · rw [Nat.testBit_succ, h1]
        simp [Nat.testBit_zero, Nat.add_mod]
      · simp [Nat.testBit_zero, h0]
    | succ i =>
      -- Two places up, the bits are those of the halves.
      obtain ⟨iho, ihe⟩ := ih i (a / 2) (b / 2)
      refine ⟨?_, ?_⟩
      · rw [show 2 * (i + 1) + 1 = 2 * i + 1 + 1 + 1 by ring, Nat.testBit_succ, Nat.testBit_succ, h1,
          h2, iho, Nat.testBit_succ]
        simp
      · rw [show 2 * (i + 1) = 2 * i + 1 + 1 by ring, Nat.testBit_succ, Nat.testBit_succ, h1, h2, ihe,
          Nat.testBit_succ]
        simp

theorem testBit_interleave_odd (n i a b : ℕ) :
    (interleave n a b).testBit (2 * i + 1) = (decide (i < n) && a.testBit i) :=
  (testBit_interleave n i a b).1

theorem testBit_interleave_even (n i a b : ℕ) :
    (interleave n a b).testBit (2 * i) = (decide (i < n) && b.testBit i) :=
  (testBit_interleave n i a b).2

/-! ## Upper parts -/

theorem shiftRight_eq_iff {x y j : ℕ} :
    x >>> j = y >>> j ↔ ∀ i, j ≤ i → x.testBit i = y.testBit i := by
  constructor
  · intro h i hji
    have := congrArg (fun z => z.testBit (i - j)) h
    simpa [Nat.testBit_shiftRight, Nat.add_sub_cancel' hji] using this
  · intro h
    apply Nat.eq_of_testBit_eq
    intro i
    simpa [Nat.testBit_shiftRight] using h (j + i) (Nat.le_add_right j i)

theorem testBit_of_lt {x n i : ℕ} (hx : x < 2 ^ n) :
    (decide (i < n) && x.testBit i) = x.testBit i := by
  by_cases hi : i < n
  · simp [hi]
  · have : x.testBit i = false := Nat.testBit_eq_false_of_lt
      (hx.trans_le (Nat.pow_le_pow_right (by decide) (Nat.not_lt.1 hi)))
    simp [this]

theorem interleave_shiftRight_eq_iff {n a b c d : ℕ} (ha : a < 2 ^ n) (hb : b < 2 ^ n)
    (hc : c < 2 ^ n) (hd : d < 2 ^ n) (j : ℕ) :
    interleave n a b >>> j = interleave n c d >>> j ↔
      a >>> (j / 2) = c >>> (j / 2) ∧ b >>> ((j + 1) / 2) = d >>> ((j + 1) / 2) := by
  simp only [shiftRight_eq_iff]
  constructor
  · intro h
    refine ⟨fun i hi => ?_, fun i hi => ?_⟩
    · have := h (2 * i + 1) (by omega)
      simpa only [testBit_interleave_odd, testBit_of_lt, ha, hc] using this
    · have := h (2 * i) (by omega)
      simpa only [testBit_interleave_even, testBit_of_lt, hb, hd] using this
  · rintro ⟨hlon, hlat⟩ i hi
    rcases Nat.even_or_odd' i with ⟨k, rfl | rfl⟩
    · simp only [testBit_interleave_even, hlat k (by omega)]
    · simp only [testBit_interleave_odd, hlon k (by omega)]

theorem shiftRight_between {x y z j : ℕ} (hxy : x ≤ y) (hyz : y ≤ z) (h : x >>> j = z >>> j) :
    x >>> j = y >>> j := by
  simp only [Nat.shiftRight_eq_div_pow] at h ⊢
  exact le_antisymm (Nat.div_le_div_right hxy) (h ▸ Nat.div_le_div_right hyz)

/-- **Betweenness.** What two interleavings share from the top, all between them share. -/
theorem interleave_shiftRight_between {n j : ℕ} {a b c a' b' c' : ℕ} (hab : a ≤ b) (hbc : b ≤ c)
    (hc : c < 2 ^ n) (hab' : a' ≤ b') (hbc' : b' ≤ c') (hc' : c' < 2 ^ n)
    (h : interleave n a a' >>> j = interleave n c c' >>> j) :
    interleave n a a' >>> j = interleave n b b' >>> j := by
  have hb := hbc.trans_lt hc
  have hb' := hbc'.trans_lt hc'
  obtain ⟨hlon, hlat⟩ :=
    (interleave_shiftRight_eq_iff (hab.trans_lt hb) (hab'.trans_lt hb') hc hc' j).1 h
  exact (interleave_shiftRight_eq_iff (hab.trans_lt hb) (hab'.trans_lt hb') hb hb' j).2
    ⟨shiftRight_between hab hbc hlon, shiftRight_between hab' hbc' hlat⟩

/-! ## The leading bit of a word -/

theorem testBit_last_eq {n w : ℕ} (hw : w < 2 ^ (n + 1)) : w.testBit n = decide (2 ^ n ≤ w) := by
  rw [Nat.testBit_eq_decide_div_mod_eq]
  congr 1
  rw [pow_succ] at hw
  have hlt : w / 2 ^ n < 2 := Nat.div_lt_of_lt_mul hw
  rw [Nat.mod_eq_of_lt hlt, eq_iff_iff, ← Nat.one_le_div_iff (by positivity)]
  omega

theorem testBit_last_mono {n v w : ℕ} (hvw : v ≤ w) (hw : w < 2 ^ (n + 1)) :
    v.testBit n = true → w.testBit n = true := by
  rw [testBit_last_eq hw, testBit_last_eq (hvw.trans_lt hw), decide_eq_true_iff,
    decide_eq_true_iff]
  exact fun h => h.trans hvw

end GeoPartition.Geohash
