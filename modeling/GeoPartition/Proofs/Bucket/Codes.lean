import GeoPartition.Proofs.Bucket.Quadrant
import GeoPartition.Bucket.Basic

/-!
# The bucket of two codes

For codes of the alphabet nothing is made small and every first symbol has a quadrant. So the bucket
is the cell of the common beginning if the first symbols agree, and otherwise a region.
-/

namespace GeoPartition

/-! ## Common beginnings -/

section commonPrefix

variable {α : Type} [DecidableEq α]

theorem commonPrefix_prefix_left (as bs : List α) : commonPrefix as bs <+: as := by
  induction as generalizing bs with
  | nil => exact List.prefix_rfl
  | cons a as ih =>
    cases bs with
    | nil => exact List.nil_prefix
    | cons b bs =>
      by_cases h : a = b
      · rw [commonPrefix, if_pos h]
        exact List.cons_prefix_cons.2 ⟨rfl, ih bs⟩
      · rw [commonPrefix, if_neg h]
        exact List.nil_prefix

theorem commonPrefix_prefix_right (as bs : List α) : commonPrefix as bs <+: bs :=
  commonPrefix_comm as bs ▸ commonPrefix_prefix_left bs as

/-- Lists that begin alike share something. -/
theorem commonPrefix_ne_nil {as bs : List α} (h : as.head? = bs.head?) (has : as ≠ []) :
    commonPrefix as bs ≠ [] := by
  cases as with
  | nil => exact absurd rfl has
  | cons a as =>
    cases bs with
    | nil => cases h
    | cons b bs => simp [commonPrefix, Option.some.inj h]

/-- Cutting two lists cuts what they share. -/
theorem commonPrefix_take (n : ℕ) (as bs : List α) :
    commonPrefix (as.take n) (bs.take n) = (commonPrefix as bs).take n := by
  induction n generalizing as bs with
  | zero => simp [commonPrefix]
  | succ n ih =>
    cases as with
    | nil => simp [commonPrefix]
    | cons a as =>
      cases bs with
      | nil => simp [commonPrefix]
      | cons b bs =>
        by_cases h : a = b
        · simp [commonPrefix, h, ih]
        · simp [commonPrefix, h]

end commonPrefix

namespace Bucket

open Geohash (alphabet)

/-- **The bucket of two codes of the alphabet.** -/
theorem ofCodes_eq {s t : Code} {q q' : Quadrant} (hs : ∀ c ∈ s, c ∈ alphabet)
    (ht : ∀ c ∈ t, c ∈ alphabet) (hq : s.head?.bind Quadrant.ofSymbol? = some q)
    (hq' : t.head?.bind Quadrant.ofSymbol? = some q') :
    ofCodes s t =
      if s.head? = t.head? then cell (commonPrefix s t)
      else if s.head? = some '0' ∧ t.head? = some 'z' then region .global
      else region (Cover.regionOfQuadrants q (some q')) := by
  cases s with
  | nil => cases hq
  | cons a as =>
    cases t with
    | nil => cases hq'
    | cons b bs =>
      have ha := (Geohash.small_of_mem_alphabet (hs a List.mem_cons_self)).2.1
      have hb := (Geohash.small_of_mem_alphabet (ht b List.mem_cons_self)).2.1
      simp only [List.head?_cons, Option.bind_some] at hq hq'
      simp only [ofCodes, Cover.ofCorners, ha, hb, hq, hq', sharedCode, List.head?_cons,
        Option.some.injEq, Geohash.lowercase_eq_self hs, Geohash.lowercase_eq_self ht]
      by_cases hab : a = b
      · simp [hab]
      · by_cases hglobal : a = '0' ∧ b = 'z'
        · simp [hglobal]
        · simp [hab, hglobal]

end Bucket

end GeoPartition
