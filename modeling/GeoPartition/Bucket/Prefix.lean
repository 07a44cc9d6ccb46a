import GeoPartition.Text.Case

/-!
# Shared beginnings

The longest common beginning of two texts, and of two codes written in any case.
-/

namespace GeoPartition

/-- The longest common beginning of two lists. -/
def commonPrefix {α : Type} [DecidableEq α] : List α → List α → List α
  | a :: as, b :: bs => if a = b then a :: commonPrefix as bs else []
  | _, _ => []

/-- The longest common beginning of the small forms of two codes. -/
def sharedCode (a b : List Char) : List Char := commonPrefix (Text.lowercase a) (Text.lowercase b)

section commonPrefix

variable {α : Type} [DecidableEq α]

theorem commonPrefix_comm (as bs : List α) : commonPrefix as bs = commonPrefix bs as := by
  induction as generalizing bs with
  | nil => cases bs <;> rfl
  | cons a as ih =>
    cases bs with
    | nil => rfl
    | cons b bs =>
      by_cases h : a = b
      · simp [commonPrefix, h, ih]
      · simp [commonPrefix, h, Ne.symm h]

end commonPrefix

end GeoPartition
