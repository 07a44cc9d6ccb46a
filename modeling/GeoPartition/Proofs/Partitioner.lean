import GeoPartition.Proofs.Bucket.Codes
import GeoPartition.Proofs.Except
import GeoPartition.Proofs.Geo.Rect

/-!
# What a partitioner answers

A coordinate has a code exactly if it is valid, and a box a bucket exactly if its corners are. A
point is filed as the box with that point at both corners, so every shape is filed as its bounding
box.
-/

namespace GeoPartition

namespace Partitioner

variable {p : Partitioner}

theorem encode_eq_ok_iff {c : Coordinate} {s : Code} :
    p.encode c = .ok s ↔ c.check = .ok () ∧ s = Geohash.code p.precision c.clamp := by
  rw [encode, bind_eq_ok_iff]
  constructor
  · rintro ⟨u, hu, hs⟩
    cases hs
    exact ⟨hu, rfl⟩
  · rintro ⟨hc, rfl⟩
    exact ⟨(), hc, rfl⟩

theorem encode_of_check {c : Coordinate} (h : c.check = .ok ()) :
    p.encode c = .ok (Geohash.code p.precision c.clamp) :=
  encode_eq_ok_iff.2 ⟨h, rfl⟩

/-- The bucket of the box between two coordinates that are encoded as they are. -/
def bucketBetween (p : Partitioner) (a b : Coordinate) : Bucket :=
  .ofCodes (Geohash.code p.precision a) (Geohash.code p.precision b)

theorem bucketOfRect_eq (p : Partitioner) (r : Rect) :
    p.bucketOfRect r = r.bottomLeft.check >>= fun _ => r.topRight.check >>= fun _ =>
      .ok (p.bucketBetween r.bottomLeft.clamp r.topRight.clamp) := by
  unfold bucketOfRect encode
  cases r.bottomLeft.check with
  | error e => rfl
  | ok u => cases r.topRight.check <;> rfl

theorem bucketOfRect_eq_ok_iff {r : Rect} {b : Bucket} :
    p.bucketOfRect r = .ok b ↔ r.bottomLeft.check = .ok () ∧ r.topRight.check = .ok () ∧
      b = p.bucketBetween r.bottomLeft.clamp r.topRight.clamp := by
  rw [bucketOfRect_eq, bind_eq_ok_iff]
  constructor
  · rintro ⟨u, hlo, h⟩
    obtain ⟨v, hhi, hb⟩ := bind_eq_ok_iff.1 h
    exact ⟨hlo, hhi, (Except.ok.inj hb).symm⟩
  · rintro ⟨hlo, hhi, rfl⟩
    exact ⟨(), hlo, bind_eq_ok_iff.2 ⟨(), hhi, rfl⟩⟩

theorem ofCorners_self (c : Coordinate) : Rect.ofCorners c c = ⟨⟨c.lon, c.lon⟩, ⟨c.lat, c.lat⟩⟩ := by
  simp [Rect.ofCorners, Extent.ofEnds]

/-- A point is filed as the box with that point at both corners. -/
theorem bucketOfPoint_eq (p : Partitioner) (c : Coordinate) :
    p.bucketOfPoint c = p.bucketOfRect (.ofCorners c c) := by
  rw [ofCorners_self]
  unfold bucketOfPoint bucketOfRect
  show (p.encode c >>= fun s => _) = (p.encode c >>= fun s => p.encode c >>= fun t => _)
  cases p.encode c <;> rfl

/-- **Every shape is filed as its bounding box.** -/
theorem bucketOfShape_eq (p : Partitioner) (s : Shape) :
    p.bucketOfShape s = s.boundingRect?.mapM p.bucketOfRect := by
  cases s with
  | point c => rw [bucketOfShape, bucketOfPoint_eq]; rfl
  | _ =>
    simp only [bucketOfShape]
    generalize Shape.boundingRect? _ = box
    cases box <;> rfl

theorem bucketOfShape_eq_some_iff {s : Shape} {b : Bucket} :
    p.bucketOfShape s = .ok (some b) ↔
      ∃ r, s.boundingRect? = some r ∧ p.bucketOfRect r = .ok b := by
  rw [bucketOfShape_eq]
  cases s.boundingRect? with
  | none => simp [Option.mapM, pure, Except.pure]
  | some r => cases hr : p.bucketOfRect r <;> simp [Option.mapM, Functor.map, Except.map, hr]

theorem bucketOfShape_eq_none_iff {s : Shape} :
    p.bucketOfShape s = .ok none ↔ s.boundingRect? = none := by
  rw [bucketOfShape_eq]
  cases s.boundingRect? with
  | none => simp [Option.mapM, pure, Except.pure]
  | some r => cases hr : p.bucketOfRect r <;> simp [Option.mapM, Functor.map, Except.map, hr]

end Partitioner

end GeoPartition
