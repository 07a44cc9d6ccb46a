import GeoPartition.Json.Token

/-!
# The tokens of a text

Scanning a token never lengthens the text behind it, so cutting a text into tokens comes to an end.
-/

namespace GeoPartition.Json

open Text

/-! ## What is left behind a token -/

theorem length_scanString (s : List Char) : (scanString s).2.length ≤ s.length := by
  fun_induction scanString s <;> simp_all <;> omega

theorem length_scanExponent (negative : Bool) (whole fraction : List Char) (integral : Bool)
    (s : List Char) : (scanExponent negative whole fraction integral s).2.length ≤ s.length := by
  have behind (t : List Char) : (splitDigits (splitSign t).2).2.length ≤ t.length + 1 :=
    Nat.le_succ_of_le (Nat.le_trans (length_splitDigits _) (length_splitSign t))
  unfold scanExponent
  split
  · dsimp only
    split <;> simp [behind]
  · dsimp only
    split <;> simp [behind]
  · exact Nat.le_refl _

theorem length_scanFraction (negative : Bool) (whole s : List Char) :
    (scanFraction negative whole s).2.length ≤ s.length := by
  unfold scanFraction
  split
  · dsimp only
    split
    · simp
    · exact Nat.le_succ_of_le (Nat.le_trans (length_scanExponent ..) (length_splitDigits _))
  · exact length_scanExponent ..

theorem length_scanNumber_digit (negative : Bool) {c : Char} (h : c.isDigit) (s : List Char) :
    (scanNumber negative (c :: s)).2.length ≤ s.length := by
  unfold scanNumber
  dsimp only
  split
  · simp
  · split
    · simp
    · refine Nat.le_trans (length_scanFraction ..) ?_
      simpa [splitDigits, h] using length_splitDigits s

theorem length_scanNumber (negative : Bool) (s : List Char) :
    (scanNumber negative s).2.length ≤ s.length := by
  unfold scanNumber
  dsimp only
  split
  · simp
  · split
    · simp
    · exact Nat.le_trans (length_scanFraction ..) (length_splitDigits s)

theorem length_scanWord (token : Token) (expected s : List Char) :
    (scanWord token expected s).2.length ≤ s.length := by
  fun_induction scanWord token expected s with
  | case1 => exact Nat.le_refl _
  | case2 => exact Nat.le_refl _
  | case3 _ _ _ ih => exact Nat.le_succ_of_le ih
  | case4 => exact Nat.zero_le _

theorem length_scanToken (c : Char) (s : List Char) : (scanToken c s).2.length ≤ s.length := by
  unfold scanToken
  split
  iterate 6 exact Nat.le_refl _
  · exact length_scanString s
  iterate 3 exact length_scanWord ..
  · exact length_scanNumber ..
  · split
    · exact length_scanNumber_digit false ‹_› s
    · simp

/-! ## Cutting a text -/

/-- The tokens of a text, up to the first broken one. -/
def tokens : List Char → List Token
  | [] => []
  | c :: s =>
    if isBlank c then tokens s
    else (scanToken c s).1 :: tokens (scanToken c s).2
termination_by s => s.length
decreasing_by
  · simp
  · have := length_scanToken c s
    simp
    omega

end GeoPartition.Json
