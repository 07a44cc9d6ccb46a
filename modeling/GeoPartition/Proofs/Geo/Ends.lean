import GeoPartition.Proofs.Geo.Rect

/-!
# The ends of a bounding box

The run through a list makes no numbers up: both ends of its extent come from the list
(`Extent.span_ends`). So for a list of numbers the extent is a *range*, from a least to a greatest
member (`Extent.span_isRangeOf`), and two ranges of the same numbers have equal ends
(`Extent.IsRangeOf.same`), whatever the order of the run and however often a number comes.

What is not a number is passed over, unless it is the first: then nothing is above or below it, and
it stays (`Extent.foldl_extend_filter`, `Extent.span_nan`).
-/

namespace GeoPartition

open Binary64

namespace Extent

/-! ## Where the ends come from -/

section ends

variable {P : Binary64 → Prop}

theorem ofEnds_ends {a b : Binary64} (ha : P a) (hb : P b) :
    P (ofEnds a b).lo ∧ P (ofEnds a b).hi := by
  unfold ofEnds
  by_cases h : a.lt b
  · rw [if_pos h]
    exact ⟨ha, hb⟩
  · rw [if_neg h]
    exact ⟨hb, ha⟩

theorem extend_ends {e : Extent} {v : Binary64} (he : P e.lo ∧ P e.hi) (hv : P v) :
    P (e.extend v).lo ∧ P (e.extend v).hi := by
  unfold extend
  split_ifs
  · exact ⟨he.1, hv⟩
  · exact ⟨hv, he.2⟩
  · exact he

/-- What holds of all numbers of a run holds of the ends. -/
theorem foldl_extend_ends {vs : List Binary64} (hvs : ∀ v ∈ vs, P v) {e : Extent}
    (he : P e.lo ∧ P e.hi) : P (vs.foldl extend e).lo ∧ P (vs.foldl extend e).hi := by
  induction vs generalizing e with
  | nil => exact he
  | cons v vs ih =>
    obtain ⟨hv, hvs⟩ := List.forall_mem_cons.1 hvs
    exact ih hvs (extend_ends he hv)

theorem span_ends {first : Binary64} {rest : List Binary64} (h : ∀ v ∈ first :: rest, P v) :
    P (span first rest).lo ∧ P (span first rest).hi := by
  obtain ⟨hfirst, hrest⟩ := List.forall_mem_cons.1 h
  obtain ⟨hlo, hhi⟩ := foldl_extend_ends hrest (e := ⟨first, first⟩) ⟨hfirst, hfirst⟩
  exact ofEnds_ends hlo hhi

end ends

/-! ## Ranges -/

/-- An extent from a least to a greatest member of a list. -/
structure IsRangeOf (e : Extent) (vs : List Binary64) : Prop where
  lo_mem : e.lo ∈ vs
  hi_mem : e.hi ∈ vs
  contains : ∀ v ∈ vs, e.Contains v

theorem ofEnds_isRangeOf {a b : Binary64} {vs : List Binary64} (ha : a ∈ vs) (hb : b ∈ vs)
    (h : ∀ v ∈ vs, (ofEnds a b).Contains v) : (ofEnds a b).IsRangeOf vs := by
  obtain ⟨hlo, hhi⟩ := ofEnds_ends (P := (· ∈ vs)) ha hb
  exact ⟨hlo, hhi, h⟩

theorem span_isRangeOf {first : Binary64} {rest : List Binary64}
    (h : ∀ v ∈ first :: rest, v ≠ nan) : (span first rest).IsRangeOf (first :: rest) := by
  obtain ⟨hlo, hhi⟩ := span_ends (P := (· ∈ first :: rest)) fun v hv => hv
  refine ⟨hlo, hhi, ?_⟩
  simpa using span_contains id h

/-- **Ranges of the same numbers have equal ends.** -/
theorem IsRangeOf.same {e e' : Extent} {vs ws : List Binary64} (h : e.IsRangeOf vs)
    (h' : e'.IsRangeOf ws) (hmem : ∀ v, v ∈ vs ↔ v ∈ ws) :
    e.lo.same e'.lo = true ∧ e.hi.same e'.hi = true := by
  have hin : ∀ v ∈ ws, e.Contains v := fun v hv => h.contains v ((hmem v).2 hv)
  have hin' : ∀ v ∈ vs, e'.Contains v := fun v hv => h'.contains v ((hmem v).1 hv)
  constructor
  · exact same_iff_le.2 ⟨(hin _ h'.lo_mem).1, (hin' _ h.lo_mem).1⟩
  · exact same_iff_le.2 ⟨(hin' _ h.hi_mem).2, (hin _ h'.hi_mem).2⟩

/-! ## What is not a number -/

theorem nan_lt (v : Binary64) : nan.lt v = false := rfl

theorem lt_nan (v : Binary64) : v.lt nan = false := by cases v <;> rfl

theorem extend_nan (e : Extent) : e.extend nan = e := by simp [extend, nan_lt, lt_nan]

theorem extend_of_nan (v : Binary64) : extend ⟨nan, nan⟩ v = ⟨nan, nan⟩ := by
  simp [extend, nan_lt, lt_nan]

/-- What is not a number is passed over. -/
theorem foldl_extend_filter (vs : List Binary64) (e : Extent) :
    (vs.filter (· ≠ nan)).foldl extend e = vs.foldl extend e := by
  induction vs generalizing e with
  | nil => rfl
  | cons v vs ih =>
    by_cases hv : v = nan
    · subst hv
      rw [List.filter_cons_of_neg (by simp), ih, List.foldl_cons, extend_nan]
    · rw [List.filter_cons_of_pos (by simpa using hv), List.foldl_cons, ih, List.foldl_cons]

/-- What is not a number stays if it is the first. -/
theorem span_nan (rest : List Binary64) : span nan rest = ⟨nan, nan⟩ := by
  have hrun : rest.foldl extend ⟨nan, nan⟩ = ⟨nan, nan⟩ := by
    induction rest with
    | nil => rfl
    | cons v rest ih => rw [List.foldl_cons, extend_of_nan, ih]
  rw [span, hrun]
  rfl

end Extent

/-- Are the longitude and the latitude numbers? -/
def Coordinate.IsNumber (c : Coordinate) : Prop := c.lon ≠ nan ∧ c.lat ≠ nan

theorem Shape.exists_boundingRect? {s : Shape} (h : s.vertices ≠ []) :
    ∃ r, s.boundingRect? = some r := by
  apply Option.ne_none_iff_exists'.1
  cases s with
  | lineString cs => exact mt Rect.bounding?_eq_none_iff.1 h
  | polygon p => exact mt Rect.bounding?_eq_none_iff.1 h
  | point _ | line _ _ | triangle _ _ _ => simp [boundingRect?, Rect.bounding?]
  | rect _ | multiPoint _ | multiLineString _ | multiPolygon _ | collection _ =>
    exact absurd rfl h

end GeoPartition
