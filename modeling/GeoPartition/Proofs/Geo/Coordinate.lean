import GeoPartition.Proofs.Binary64.Order
import GeoPartition.Partitioner

/-!
# Valid coordinates

A number of degrees passes its check exactly if it lies between the limits of its axis. Clamping
keeps it above the lower limit, brings it under the ceiling, and keeps the order.
-/

namespace GeoPartition

open Binary64

namespace Axis

/-- The least number of degrees. -/
def floor (axis : Axis) : Binary64 := (Binary64.ofNat axis.limit).neg

set_option maxRecDepth 2000

theorem limit_isFinite (axis : Axis) : (Binary64.ofNat axis.limit).isFinite = true := by
  cases axis <;> decide

theorem floor_isFinite (axis : Axis) : axis.floor.isFinite = true := by
  cases axis <;> decide

theorem ceiling_isFinite (axis : Axis) : axis.ceiling.isFinite = true := by
  cases axis <;> decide

theorem floor_le_ceiling (axis : Axis) : axis.floor.le axis.ceiling = true := by
  cases axis <;> decide

end Axis

namespace Binary64

theorem rank?_neg {x : Binary64} {i : ℤ} (h : x.rank? = some i) : x.neg.rank? = some (-i) := by
  cases x with
  | nan => cases h
  | signed s m =>
    obtain rfl := Option.some.inj h
    cases s <;> simp [neg, rank?]

theorem rank?_abs {x : Binary64} {i : ℤ} (h : x.rank? = some i) :
    x.abs.rank? = some (i.natAbs : ℤ) := by
  cases x with
  | nan => cases h
  | signed s m =>
    obtain rfl := Option.some.inj h
    cases s <;> simp [abs, rank?]

end Binary64

namespace Coordinate

theorem checkAxis_ok_iff {axis : Axis} {v : Binary64} :
    checkAxis axis v = .ok () ↔
      axis.floor.le v = true ∧ v.le (Binary64.ofNat axis.limit) = true := by
  have hfin := axis.limit_isFinite
  obtain ⟨l, hl⟩ := exists_rank (ne_nan_of_isFinite hfin)
  have hneg : axis.floor.rank? = some (-l) := rank?_neg hl
  unfold checkAxis
  by_cases hv : v.isFinite
  · obtain ⟨i, hi⟩ := exists_rank (ne_nan_of_isFinite hv)
    have habs := rank?_abs hi
    simp only [hv, Bool.not_true, Bool.false_eq_true, ↓reduceIte, lt, le, hl, hi, habs, hneg,
      decide_eq_true_eq]
    by_cases h : l < i.natAbs
    · simp only [h, ↓reduceIte, reduceCtorEq, false_iff]
      omega
    · simp only [h, ↓reduceIte, true_iff]
      omega
  · refine iff_of_false (by simp [hv]) ?_
    rintro ⟨hlo, hhi⟩
    exact hv (isFinite_of_le_of_le hlo hhi axis.floor_isFinite hfin)

theorem check_ok_iff {c : Coordinate} :
    c.check = .ok () ↔ checkAxis .longitude c.lon = .ok () ∧ checkAxis .latitude c.lat = .ok () := by
  unfold check
  cases checkAxis .longitude c.lon with
  | error e => simp [bind, Except.bind]
  | ok u => simp [bind, Except.bind]

end Coordinate

/-! ## Clamping -/

namespace Axis

/-- Do degrees lie where they are encoded as they are? -/
def Encodes (axis : Axis) (v : Binary64) : Prop :=
  axis.floor.le v = true ∧ v.le axis.ceiling = true

/-- The nearest number of degrees that is encoded as it is. -/
def clamp (axis : Axis) (v : Binary64) : Binary64 := v.min axis.ceiling

theorem encodes_clamp {axis : Axis} {v : Binary64} (h : Coordinate.checkAxis axis v = .ok ()) :
    axis.Encodes (axis.clamp v) := by
  obtain ⟨hlo, -⟩ := Coordinate.checkAxis_ok_iff.1 h
  exact ⟨le_min hlo axis.floor_le_ceiling,
    min_le_right (ne_nan_of_le_right hlo) (ne_nan_of_isFinite axis.ceiling_isFinite)⟩

theorem clamp_le_clamp {axis : Axis} {v w : Binary64} (h : v.le w = true) :
    (axis.clamp v).le (axis.clamp w) = true :=
  min_le_min_right h (ne_nan_of_isFinite axis.ceiling_isFinite)

end Axis

namespace Coordinate

/-- Is a coordinate neither east nor north of another one? -/
def Le (a b : Coordinate) : Prop := a.lon.le b.lon = true ∧ a.lat.le b.lat = true

/-- Does a coordinate lie where it is encoded as it is? -/
def Encodes (c : Coordinate) : Prop :=
  Axis.longitude.Encodes c.lon ∧ Axis.latitude.Encodes c.lat

theorem encodes_clamp {c : Coordinate} (h : c.check = .ok ()) : c.clamp.Encodes :=
  ⟨Axis.encodes_clamp (check_ok_iff.1 h).1, Axis.encodes_clamp (check_ok_iff.1 h).2⟩

theorem clamp_le_clamp {a b : Coordinate} (h : a.Le b) : a.clamp.Le b.clamp :=
  ⟨Axis.clamp_le_clamp h.1, Axis.clamp_le_clamp h.2⟩

theorem le_refl {c : Coordinate} (h : c.check = .ok ()) : c.Le c := by
  obtain ⟨hlon, hlat⟩ := check_ok_iff.1 h
  exact ⟨Binary64.le_refl (ne_nan_of_le_right (checkAxis_ok_iff.1 hlon).1),
    Binary64.le_refl (ne_nan_of_le_right (checkAxis_ok_iff.1 hlat).1)⟩

/-- What lies between valid coordinates is valid. -/
theorem check_ok_of_le_of_le {a b c : Coordinate} (ha : a.check = .ok ()) (hc : c.check = .ok ())
    (hab : a.Le b) (hbc : b.Le c) : b.check = .ok () := by
  obtain ⟨halon, halat⟩ := check_ok_iff.1 ha
  obtain ⟨hclon, hclat⟩ := check_ok_iff.1 hc
  refine check_ok_iff.2 ⟨checkAxis_ok_iff.2 ⟨?_, ?_⟩, checkAxis_ok_iff.2 ⟨?_, ?_⟩⟩
  · exact le_trans (checkAxis_ok_iff.1 halon).1 hab.1
  · exact le_trans hbc.1 (checkAxis_ok_iff.1 hclon).2
  · exact le_trans (checkAxis_ok_iff.1 halat).1 hab.2
  · exact le_trans hbc.2 (checkAxis_ok_iff.1 hclat).2

end Coordinate

end GeoPartition
