import GeoPartition.Ingest
import GeoPartition.Proofs.Json.Record
import GeoPartition.Proofs.Settings.Fields
import GeoPartition.Settings.Json

/-!
# Settings through JSON

**Theorem (`ofJson_toJson`).** Settings that are written are read back if they can be used;
otherwise they are refused with the fault that the check of the settings finds.

Every setting is spelled as it is written (`spells_fieldValue`) and read as it was
(`readField_fieldDraft`), so the record that is read is the one that was written, whatever stood in
its place before. What is refused is refused by the check behind the reader.
-/

namespace GeoPartition.Settings

open Json (Draft Spells)

/-- The value of each setting, as it is read. -/
def fieldDraft (s : Settings) : Field → Draft
  | .precision => .number (.ofNat s.precision.toNat)
  | .maxFeatures => match s.maxFeatures with
    | some n => .number (.ofNat n.toNat)
    | none => .null
  | .parallel => .bool s.parallel
  | .skipInvalid => .bool s.skipInvalid

theorem spells_fieldValue (s : Settings) (f : Field) (level : ℕ) :
    Spells ((s.fieldValue f).pretty level) (s.fieldDraft f) := by
  cases f with
  | precision => exact Json.spells_natural _ level
  | maxFeatures =>
    unfold fieldValue fieldDraft
    cases s.maxFeatures with
    | none => exact Json.spells_null level
    | some n => exact Json.spells_natural _ level
  | parallel => exact Json.spells_bool _ level
  | skipInvalid => exact Json.spells_bool _ level

theorem readField_fieldDraft (s : Settings) (f : Field) (t : Settings) :
    readField f (s.fieldDraft f) t = .ok (s.putField f t) := by
  have hnatural (n : UInt64) : (Draft.number (.ofNat n.toNat)).natural "usize" = .ok n.toNat :=
    Json.natural_ofNat n.toNat_lt "usize"
  cases f with
  | precision => simp [readField, fieldDraft, putField, hnatural, Functor.map, Except.map]
  | maxFeatures =>
    cases hmax : s.maxFeatures with
    | none => simp [readField, fieldDraft, putField, hmax, Draft.nullable, Functor.map, Except.map]
    | some n =>
      simp [readField, fieldDraft, putField, hmax, Draft.nullable, hnatural, Functor.map,
        Except.map]
  | parallel => rfl
  | skipInvalid => rfl

theorem field?_key (f : Field) : record.field? f.key.toList = some f := by
  cases f <;> decide

/-- **What is written is read**, before it is checked. -/
theorem readText_toJson (s : Settings) : record.readText {} s.toJson.toList = .ok s := by
  rw [toJson, String.toList_ofList, Json.Record.readText_of_spells
    (Json.spells_object Field.key s.fieldValue s.fieldDraft Field.all 0 fun f _ =>
      s.spells_fieldValue f 1)]
  exact (Json.Record.readDraft_object Field.nodup_all (fun f _ => field?_key f)
    (fun f _ => s.readField_fieldDraft f) nofun {}).trans (congrArg Except.ok (foldl_putField s {}))

theorem ofJson_toJson_eq (s : Settings) : ofJson s.toJson =
    s.check.mapError (fun e => .data (.invalidSettings e)) >>= fun _ => pure s := by
  rw [ofJson, readText_toJson]
  rfl

/-- **Settings through JSON.** Exactly the settings that can be used are read back from what is
written, and nothing else is read. All others are refused with the fault of their check, and the
message is the one that a run with these settings ends with. -/
theorem ofJson_toJson (s : Settings) :
    (∀ t, ofJson s.toJson = .ok t ↔ s.check = .ok () ∧ t = s) ∧
    (∀ e, ofJson s.toJson = .error (.data (.invalidSettings e)) ↔ s.check = .error e) ∧
    ∀ e, (DataError.invalidSettings e).message = (Ingest.Error.settings e).message := by
  have hinj : Function.Injective fun e => Json.Error.data (.invalidSettings e) := by
    rintro _ _ ⟨⟩
    rfl
  rw [ofJson_toJson_eq]
  exact ⟨fun _ => checked_eq_ok_iff, fun _ => checked_eq_error_iff hinj, fun _ => rfl⟩

end GeoPartition.Settings
