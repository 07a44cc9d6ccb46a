import GeoPartition.GeoJson.Geometry
import GeoPartition.Proofs.Partitioner

/-!
# Geometries without a box

A geometry can be read and still have no box around it. These are the geometries of several parts,
whatever they hold, and of the others the empty lines and the polygons with an empty exterior
(`exists_toShape_boxless_iff`).
-/

namespace GeoPartition

namespace GeoJson

theorem exists_coordinate_eq_ok_iff {pos : Position} :
    (∃ c, coordinate pos = .ok c) ↔ 2 ≤ pos.length := by
  match pos with
  | [] => simp [coordinate]
  | [_] => simp [coordinate]
  | x :: y :: rest => simp [coordinate]

namespace Geometry

/-- The geometries that can be read and have no box around them. -/
inductive Boxless : Geometry → Prop
  | multiPoint (ps : List Position) : Boxless (.multiPoint ps)
  | multiLineString (lines : List (List Position)) : Boxless (.multiLineString lines)
  | multiPolygon (polygons : List (List (List Position))) : Boxless (.multiPolygon polygons)
  | collection (members : List Geometry) : Boxless (.collection members)
  | emptyLine : Boxless (.lineString [])
  | emptyExterior {interiors : List (List Position)} :
      (∀ ring ∈ interiors, ∀ pos ∈ ring, 2 ≤ pos.length) → Boxless (.polygon ([] :: interiors))

theorem exists_mapM_mapM_coordinate_iff {rings : List (List Position)} :
    (∃ css, rings.mapM (·.mapM coordinate) = .ok css) ↔
      ∀ ring ∈ rings, ∀ pos ∈ ring, 2 ≤ pos.length := by
  simp only [exists_mapM_eq_ok_iff, exists_coordinate_eq_ok_iff]

/-- **Geometries without a box**, by their kind. -/
theorem exists_toShape_boxless_iff {g : Geometry} :
    (∃ o, g.toShape = .ok o ∧ o.bind Shape.boundingRect? = none) ↔ g.Boxless := by
  constructor
  · rintro ⟨o, hshape, hbox⟩
    cases g with
    | multiPoint ps => exact .multiPoint ps
    | multiLineString lines => exact .multiLineString lines
    | multiPolygon polygons => exact .multiPolygon polygons
    | collection members => exact .collection members
    | point pos =>
      obtain ⟨c, -, ho⟩ := bind_eq_ok_iff.1 hshape
      cases ho
      cases hbox
    | lineString ps =>
      obtain ⟨cs, hcs, ho⟩ := bind_eq_ok_iff.1 hshape
      cases ho
      obtain rfl : cs = [] := Rect.bounding?_eq_none_iff.1 hbox
      obtain rfl := eq_nil_of_mapM_eq_ok_nil hcs
      exact .emptyLine
    | polygon rings =>
      cases rings with
      | nil => cases hshape
      | cons exterior interiors =>
        obtain ⟨css, hcss, hrest⟩ := bind_eq_ok_iff.1 hshape
        obtain ⟨cs, hcs, ho⟩ := bind_eq_ok_iff.1 hrest
        cases ho
        obtain rfl := Coordinate.closeRing_eq_nil_iff.1 (Rect.bounding?_eq_none_iff.1 hbox)
        obtain rfl := eq_nil_of_mapM_eq_ok_nil hcs
        exact .emptyExterior (exists_mapM_mapM_coordinate_iff.1 ⟨css, hcss⟩)
  · intro h
    cases h with
    | emptyExterior hinteriors =>
      obtain ⟨css, hcss⟩ := exists_mapM_mapM_coordinate_iff.2 hinteriors
      exact ⟨_, bind_eq_ok_iff.2 ⟨css, hcss, rfl⟩, rfl⟩
    | _ => exact ⟨_, rfl, rfl⟩

end Geometry

/-- The features around which no box can be drawn, though their geometries can be read. -/
def Feature.Boxless (f : Feature) : Prop := ∀ g, f.geometry = some g → g.Boxless

end GeoJson

end GeoPartition
