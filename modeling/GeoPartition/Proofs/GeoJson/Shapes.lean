import GeoPartition.Proofs.GeoJson.Boxless

/-!
# The shape of a geometry

Reading a geometry comes to one of four things, each of which is told by the geometry itself: it has
several parts and no shape (`toShape_eq_none_iff`), it has no ring or a position with fewer than two
values (`toShape_eq_error_iff`), or it is of the same kind as its shape, with the vertices in their
order (`toShape_eq_some_iff`).
-/

namespace GeoPartition

namespace Coordinate

/-- **Closing a ring.** Its first vertex follows once more, if it is not where the ring ends. -/
inductive Closes : List Coordinate → List Coordinate → Prop
  | empty : Closes [] []
  | closed {ring : List Coordinate} {first last : Coordinate} :
      ring.head? = some first → ring.getLast? = some last → first.same last = true →
      Closes ring ring
  | opened {ring : List Coordinate} {first last : Coordinate} :
      ring.head? = some first → ring.getLast? = some last → first.same last = false →
      Closes ring (ring ++ [first])

theorem closeRing_eq_iff {ring closed : List Coordinate} :
    closeRing ring = closed ↔ Closes ring closed := by
  constructor
  · rintro rfl
    cases ring with
    | nil => exact .empty
    | cons first rest =>
      have hhead : (first :: rest).head? = some first := List.head?_cons
      have hlast : (first :: rest).getLast? = some (rest.getLast?.getD first) :=
        List.getLast?_cons
      simp only [closeRing, hhead, hlast]
      split_ifs with hsame
      · exact .closed hhead hlast hsame
      · exact .opened hhead hlast (Bool.eq_false_of_not_eq_true hsame)
  · intro h
    cases h with
    | empty => rfl
    | closed hhead hlast hsame => simp [closeRing, hhead, hlast, hsame]
    | opened hhead hlast hsame => simp [closeRing, hhead, hlast, hsame]

theorem map_closeRing_eq_iff {rings closed : List (List Coordinate)} :
    rings.map closeRing = closed ↔ List.Forall₂ Closes rings closed := by
  have hcloses : Closes = fun ring closed => closeRing ring = closed := by
    funext ring closed
    exact propext closeRing_eq_iff.symm
  rw [hcloses, ← List.forall₂_map_left_iff, List.forall₂_eq_eq_eq]

end Coordinate

namespace GeoJson

open Coordinate (Closes)

/-! ## Positions -/

/-- A position stands for the coordinate with its first two values. -/
def ReadsAs (pos : Position) (c : Coordinate) : Prop := pos[0]? = some c.lon ∧ pos[1]? = some c.lat

theorem coordinate_eq_ok_iff {pos : Position} {c : Coordinate} :
    coordinate pos = .ok c ↔ ReadsAs pos c := by
  obtain ⟨lon, lat⟩ := c
  match pos with
  | [] => simp [coordinate, ReadsAs]
  | [_] => simp [coordinate, ReadsAs]
  | x :: y :: rest => simp [coordinate, ReadsAs]

theorem coordinate_eq_error_iff {pos : Position} {e : ShapeError} :
    coordinate pos = .error e ↔ e = .shortPosition ∧ pos.length < 2 := by
  match pos with
  | [] => simp [coordinate, eq_comm]
  | [_] => simp [coordinate, eq_comm]
  | x :: y :: rest => simp [coordinate]

theorem mapM_coordinate_eq_error_iff {ps : List Position} {e : ShapeError} :
    ps.mapM coordinate = .error e ↔ e = .shortPosition ∧ ∃ pos ∈ ps, pos.length < 2 := by
  rw [mapM_eq_error_iff fun pos e h => (coordinate_eq_error_iff.1 h).1]
  simp only [coordinate_eq_error_iff, true_and]

theorem mapM_mapM_coordinate_eq_error_iff {rings : List (List Position)} {e : ShapeError} :
    rings.mapM (·.mapM coordinate) = .error e ↔
      e = .shortPosition ∧ ∃ ring ∈ rings, ∃ pos ∈ ring, pos.length < 2 := by
  rw [mapM_eq_error_iff fun ring e h => (mapM_coordinate_eq_error_iff.1 h).1]
  simp only [mapM_coordinate_eq_error_iff, true_and]

theorem mapM_coordinate_eq_ok_iff {ps : List Position} {cs : List Coordinate} :
    ps.mapM coordinate = .ok cs ↔ List.Forall₂ ReadsAs ps cs := by
  simp only [mapM_eq_ok_iff, coordinate_eq_ok_iff]

theorem mapM_mapM_coordinate_eq_ok_iff {rings : List (List Position)}
    {css : List (List Coordinate)} :
    rings.mapM (·.mapM coordinate) = .ok css ↔ List.Forall₂ (List.Forall₂ ReadsAs) rings css := by
  rw [mapM_eq_ok_iff]
  exact ⟨.imp fun _ _ => mapM_coordinate_eq_ok_iff.1, .imp fun _ _ => mapM_coordinate_eq_ok_iff.2⟩

namespace Geometry

/-! ## Geometries -/

/-- The geometries of several parts. -/
inductive HasParts : Geometry → Prop
  | multiPoint (ps : List Position) : HasParts (.multiPoint ps)
  | multiLineString (lines : List (List Position)) : HasParts (.multiLineString lines)
  | multiPolygon (polygons : List (List (List Position))) : HasParts (.multiPolygon polygons)
  | collection (members : List Geometry) : HasParts (.collection members)

/-- **The shape of a geometry** of one part. The rings of a polygon are closed; the first is the
exterior. -/
inductive Reads : Geometry → Shape → Prop
  | point {pos : Position} {c : Coordinate} : ReadsAs pos c → Reads (.point pos) (.point c)
  | lineString {ps : List Position} {cs : List Coordinate} :
      List.Forall₂ ReadsAs ps cs → Reads (.lineString ps) (.lineString cs)
  | polygon {exterior : List Position} {interiors : List (List Position)}
      {cs closed : List Coordinate} {css holes : List (List Coordinate)} :
      List.Forall₂ ReadsAs exterior cs → Closes cs closed →
      List.Forall₂ (List.Forall₂ ReadsAs) interiors css → List.Forall₂ Closes css holes →
      Reads (.polygon (exterior :: interiors)) (.polygon ⟨closed, holes⟩)

/-- The positions of a geometry of one part. -/
def positions : Geometry → List Position
  | point pos => [pos]
  | lineString ps => ps
  | polygon rings => rings.flatten
  | multiPoint _ | multiLineString _ | multiPolygon _ | collection _ => []

theorem toShape_polygon (exterior : List Position) (interiors : List (List Position)) :
    (polygon (exterior :: interiors)).toShape =
      interiors.mapM (·.mapM coordinate) >>= fun css => exterior.mapM coordinate >>= fun cs =>
        .ok (some (.polygon (.ofRings cs css))) :=
  rfl

theorem toShape_eq_some_iff {g : Geometry} {s : Shape} :
    g.toShape = .ok (some s) ↔ g.Reads s := by
  constructor
  · intro h
    cases g with
    | point pos =>
      obtain ⟨c, hc, hs⟩ := bind_eq_ok_iff.1 h
      cases hs
      exact .point (coordinate_eq_ok_iff.1 hc)
    | lineString ps =>
      obtain ⟨cs, hcs, hs⟩ := bind_eq_ok_iff.1 h
      cases hs
      exact .lineString (mapM_coordinate_eq_ok_iff.1 hcs)
    | polygon rings =>
      cases rings with
      | nil => cases h
      | cons exterior interiors =>
        rw [toShape_polygon] at h
        obtain ⟨css, hcss, hrest⟩ := bind_eq_ok_iff.1 h
        obtain ⟨cs, hcs, hs⟩ := bind_eq_ok_iff.1 hrest
        cases hs
        exact .polygon (mapM_coordinate_eq_ok_iff.1 hcs) (Coordinate.closeRing_eq_iff.1 rfl)
          (mapM_mapM_coordinate_eq_ok_iff.1 hcss) (Coordinate.map_closeRing_eq_iff.1 rfl)
    | multiPoint _ | multiLineString _ | multiPolygon _ | collection _ => cases h
  · intro h
    cases h with
    | point hc => exact bind_eq_ok_iff.2 ⟨_, coordinate_eq_ok_iff.2 hc, rfl⟩
    | lineString hcs => exact bind_eq_ok_iff.2 ⟨_, mapM_coordinate_eq_ok_iff.2 hcs, rfl⟩
    | polygon hcs hclosed hcss hholes =>
      obtain rfl := Coordinate.closeRing_eq_iff.2 hclosed
      obtain rfl := Coordinate.map_closeRing_eq_iff.2 hholes
      rw [toShape_polygon]
      exact bind_eq_ok_iff.2 ⟨_, mapM_mapM_coordinate_eq_ok_iff.2 hcss,
        bind_eq_ok_iff.2 ⟨_, mapM_coordinate_eq_ok_iff.2 hcs, rfl⟩⟩

theorem toShape_eq_none_iff {g : Geometry} : g.toShape = .ok none ↔ g.HasParts := by
  constructor
  · intro h
    cases g with
    | multiPoint ps => exact .multiPoint ps
    | multiLineString lines => exact .multiLineString lines
    | multiPolygon polygons => exact .multiPolygon polygons
    | collection members => exact .collection members
    | point _ | lineString _ =>
      obtain ⟨_, -, hs⟩ := bind_eq_ok_iff.1 h
      cases hs
    | polygon rings =>
      cases rings with
      | nil => cases h
      | cons exterior interiors =>
        rw [toShape_polygon] at h
        obtain ⟨_, -, hrest⟩ := bind_eq_ok_iff.1 h
        obtain ⟨_, -, hs⟩ := bind_eq_ok_iff.1 hrest
        cases hs
  · rintro (_ | _ | _ | _) <;> rfl

theorem toShape_polygon_eq_error_iff {exterior : List Position} {interiors : List (List Position)}
    {e : ShapeError} :
    (polygon (exterior :: interiors)).toShape = .error e ↔
      e = .shortPosition ∧ ∃ ring ∈ exterior :: interiors, ∃ pos ∈ ring, pos.length < 2 := by
  rw [toShape_polygon, bind_eq_error_iff, mapM_mapM_coordinate_eq_error_iff,
    List.exists_mem_cons_iff]
  simp only [bind_eq_error_iff, mapM_coordinate_eq_error_iff, reduceCtorEq, and_false, exists_false,
    or_false]
  constructor
  · rintro (⟨he, hshort⟩ | ⟨_, -, he, hshort⟩)
    · exact ⟨he, .inr hshort⟩
    · exact ⟨he, .inl hshort⟩
  · rintro ⟨he, hshort⟩
    -- The interior rings are read first, and may have the fault too.
    cases hcss : interiors.mapM (·.mapM coordinate) with
    | error e' =>
      obtain ⟨-, hshort'⟩ := mapM_mapM_coordinate_eq_error_iff.1 hcss
      exact .inl ⟨he, hshort'⟩
    | ok css =>
      refine hshort.symm.imp (fun h => ⟨he, h⟩) fun h => ⟨css, rfl, he, h⟩

theorem exists_mem_positions_polygon {rings : List (List Position)} {P : Position → Prop} :
    (∃ pos ∈ (polygon rings).positions, P pos) ↔ ∃ ring ∈ rings, ∃ pos ∈ ring, P pos := by
  simp only [positions, List.mem_flatten]
  constructor
  · rintro ⟨pos, ⟨ring, hring, hmem⟩, hP⟩
    exact ⟨ring, hring, pos, hmem, hP⟩
  · rintro ⟨ring, hring, pos, hmem, hP⟩
    exact ⟨pos, ⟨ring, hring, hmem⟩, hP⟩

theorem toShape_eq_error_iff {g : Geometry} {e : ShapeError} :
    g.toShape = .error e ↔
      (e = .noRing ∧ g = .polygon []) ∨
        (e = .shortPosition ∧ ∃ pos ∈ g.positions, pos.length < 2) := by
  cases g with
  | point pos =>
    simp only [toShape, bind_pure_comp, map_eq_error_iff, coordinate_eq_error_iff]
    simp [positions]
  | lineString ps =>
    simp only [toShape, bind_pure_comp, map_eq_error_iff, mapM_coordinate_eq_error_iff]
    simp [positions]
  | polygon rings =>
    cases rings with
    | nil => simp [toShape, positions, eq_comm]
    | cons exterior interiors =>
      rw [toShape_polygon_eq_error_iff, exists_mem_positions_polygon]
      simp
  | multiPoint _ | multiLineString _ | multiPolygon _ | collection _ => simp [toShape, positions]

end Geometry

end GeoJson

end GeoPartition
