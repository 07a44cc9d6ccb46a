import GeoPartition.Proofs.Geo.Coordinate
import GeoPartition.Geo.Shape

/-!
# Bounding boxes

The run through a list of numbers widens an extent step by step. What was in the extent stays in it,
and the new number is in it afterwards, so at the end all numbers of the list are. A shape of one
part is therefore inside its bounding box, if its vertices are valid.
-/

namespace GeoPartition

open Binary64

namespace Extent

/-- Is a number between the ends of an extent? -/
def Contains (e : Extent) (v : Binary64) : Prop := e.lo.le v = true ∧ v.le e.hi = true

/-- The extent between two numbers holds what is between them in either order. -/
theorem ofEnds_contains {a b v : Binary64} (ha : a.le v = true) (hb : v.le b = true) :
    (ofEnds a b).Contains v := by
  unfold ofEnds
  by_cases h : a.lt b
  · rw [if_pos h]
    exact ⟨ha, hb⟩
  · -- The ends are equal as numbers, so it does not matter that they are exchanged.
    rw [if_neg h]
    have hba : b.le a = true :=
      (lt_false_iff (ne_nan_of_le_left ha) (ne_nan_of_le_right hb)).1 (Bool.eq_false_of_not_eq_true h)
    exact ⟨le_trans hba ha, le_trans hb hba⟩

theorem ofEnds_contains_ends {a b : Binary64} (ha : a ≠ nan) (hb : b ≠ nan) :
    (ofEnds a b).Contains a ∧ (ofEnds a b).Contains b := by
  unfold ofEnds
  by_cases h : a.lt b
  · rw [if_pos h]
    exact ⟨⟨Binary64.le_refl ha, le_of_lt h⟩, ⟨le_of_lt h, Binary64.le_refl hb⟩⟩
  · rw [if_neg h]
    have hba := (lt_false_iff ha hb).1 (Bool.eq_false_of_not_eq_true h)
    exact ⟨⟨hba, Binary64.le_refl ha⟩, ⟨Binary64.le_refl hb, hba⟩⟩

/-- One more number is held, and so is what was held before. -/
theorem extend_contains {e : Extent} {v : Binary64} (he : e.lo.le e.hi = true) (hv : v ≠ nan) :
    (e.extend v).Contains v ∧ ∀ w, e.Contains w → (e.extend v).Contains w := by
  have hlo := ne_nan_of_le_left he
  have hhi := ne_nan_of_le_right he
  unfold extend
  by_cases h : e.hi.lt v
  · rw [if_pos h]
    exact ⟨⟨le_trans he (le_of_lt h), Binary64.le_refl hv⟩,
      fun w hw => ⟨hw.1, le_trans hw.2 (le_of_lt h)⟩⟩
  · have hvhi := (lt_false_iff hhi hv).1 (Bool.eq_false_of_not_eq_true h)
    rw [if_neg h]
    by_cases h' : v.lt e.lo
    · rw [if_pos h']
      exact ⟨⟨Binary64.le_refl hv, hvhi⟩, fun w hw => ⟨le_trans (le_of_lt h') hw.1, hw.2⟩⟩
    · rw [if_neg h']
      have hlov := (lt_false_iff hv hlo).1 (Bool.eq_false_of_not_eq_true h')
      exact ⟨⟨hlov, hvhi⟩, fun w hw => hw⟩

/-- The run through a list: all of its numbers are held at the end. -/
theorem foldl_extend_contains {vs : List Binary64} (hvs : ∀ v ∈ vs, v ≠ nan) {e : Extent}
    (he : e.lo.le e.hi = true) :
    (∀ w, e.Contains w → (vs.foldl extend e).Contains w) ∧
      ∀ v ∈ vs, (vs.foldl extend e).Contains v := by
  induction vs generalizing e with
  | nil => exact ⟨fun w hw => hw, fun v hv => absurd hv List.not_mem_nil⟩
  | cons v vs ih =>
    obtain ⟨hv, hkeep⟩ := extend_contains he (hvs v List.mem_cons_self)
    obtain ⟨hw, hrest⟩ := ih (fun u hu => hvs u (List.mem_cons_of_mem v hu)) (le_trans hv.1 hv.2)
    refine ⟨fun w h => hw w (hkeep w h), fun u hu => ?_⟩
    rcases List.mem_cons.1 hu with rfl | hu
    · exact hw u hv
    · exact hrest u hu

/-- The extent of what a list gives on an axis holds what each of its members gives. -/
theorem span_contains {α : Type} (f : α → Binary64) {first : α} {rest : List α}
    (h : ∀ c ∈ first :: rest, f c ≠ nan) :
    ∀ c ∈ first :: rest, (span (f first) (rest.map f)).Contains (f c) := by
  have hfirst := Binary64.le_refl (h first List.mem_cons_self)
  have hrest : ∀ v ∈ rest.map f, v ≠ nan := List.forall_mem_map.2 fun c hc =>
    h c (List.mem_cons_of_mem first hc)
  obtain ⟨hkeep, hheld⟩ := foldl_extend_contains (e := ⟨f first, f first⟩) hrest hfirst
  intro c hc
  rcases List.mem_cons.1 hc with rfl | hc
  · exact ofEnds_contains (hkeep _ ⟨hfirst, hfirst⟩).1 (hkeep _ ⟨hfirst, hfirst⟩).2
  · have := hheld _ (List.mem_map_of_mem hc)
    exact ofEnds_contains this.1 this.2

end Extent

namespace Rect

/-- Is a coordinate between the corners of a rectangle on both axes? -/
def Contains (r : Rect) (c : Coordinate) : Prop := r.bottomLeft.Le c ∧ c.Le r.topRight

theorem contains_iff {r : Rect} {c : Coordinate} :
    r.Contains c ↔ r.lon.Contains c.lon ∧ r.lat.Contains c.lat := by
  constructor
  · rintro ⟨⟨h1, h2⟩, h3, h4⟩
    exact ⟨⟨h1, h3⟩, h2, h4⟩
  · rintro ⟨⟨h1, h3⟩, h2, h4⟩
    exact ⟨⟨h1, h2⟩, h3, h4⟩

theorem ofCorners_contains {a b : Coordinate} (ha : a.check = .ok ()) (hb : b.check = .ok ()) :
    (ofCorners a b).Contains a ∧ (ofCorners a b).Contains b := by
  obtain ⟨halon, halat⟩ := Coordinate.le_refl ha
  obtain ⟨hblon, hblat⟩ := Coordinate.le_refl hb
  obtain ⟨h1, h2⟩ := Extent.ofEnds_contains_ends (ne_nan_of_le_left halon) (ne_nan_of_le_left hblon)
  obtain ⟨h3, h4⟩ := Extent.ofEnds_contains_ends (ne_nan_of_le_left halat) (ne_nan_of_le_left hblat)
  exact ⟨contains_iff.2 ⟨h1, h3⟩, contains_iff.2 ⟨h2, h4⟩⟩

theorem bounding?_eq_none_iff {cs : List Coordinate} : bounding? cs = none ↔ cs = [] := by
  cases cs <;> simp [bounding?]

theorem bounding?_contains {cs : List Coordinate} {r : Rect} (h : bounding? cs = some r)
    (hcs : ∀ c ∈ cs, c.check = .ok ()) : ∀ c ∈ cs, r.Contains c := by
  cases cs with
  | nil => cases h
  | cons first rest =>
    obtain rfl := Option.some.inj h
    intro c hc
    exact contains_iff.2
      ⟨Extent.span_contains (·.lon)
        (fun d hd => ne_nan_of_le_left (Coordinate.le_refl (hcs d hd)).1) c hc,
      Extent.span_contains (·.lat)
        (fun d hd => ne_nan_of_le_left (Coordinate.le_refl (hcs d hd)).2) c hc⟩

end Rect

theorem Coordinate.closeRing_eq_nil_iff {ring : List Coordinate} :
    closeRing ring = [] ↔ ring = [] := by
  cases ring with
  | nil => simp [closeRing]
  | cons c cs =>
    simp only [closeRing, List.head?_cons, List.getLast?_cons]
    split_ifs <;> simp

namespace Shape

/-- The vertices that the bounding box of a shape is built from. A rectangle is its own box and
lists none. -/
def vertices : Shape → List Coordinate
  | point c => [c]
  | line start finish => [start, finish]
  | lineString cs => cs
  | polygon p => p.exterior
  | triangle a b c => [a, b, c]
  | rect _ | multiPoint _ | multiLineString _ | multiPolygon _ | collection _ => []

/-- **A shape is inside its bounding box.** -/
theorem boundingRect?_contains {s : Shape} {r : Rect} (h : s.boundingRect? = some r)
    (hs : ∀ v ∈ s.vertices, v.check = .ok ()) : ∀ v ∈ s.vertices, r.Contains v := by
  cases s with
  | point c =>
    obtain rfl := Option.some.inj h
    intro v hv
    obtain rfl := List.mem_singleton.1 hv
    exact (Rect.ofCorners_contains (hs v hv) (hs v hv)).1
  | line start finish =>
    obtain rfl := Option.some.inj h
    have hends := Rect.ofCorners_contains (hs start List.mem_cons_self)
      (hs finish (List.mem_cons_of_mem _ List.mem_cons_self))
    intro v hv
    rcases List.mem_pair.1 hv with rfl | rfl
    · exact hends.1
    · exact hends.2
  | lineString cs => exact Rect.bounding?_contains h hs
  | polygon p => exact Rect.bounding?_contains h hs
  | triangle a b c => exact Rect.bounding?_contains h hs
  | rect _ | multiPoint _ | multiLineString _ | multiPolygon _ | collection _ =>
    exact fun v hv => absurd hv List.not_mem_nil

end Shape

end GeoPartition
