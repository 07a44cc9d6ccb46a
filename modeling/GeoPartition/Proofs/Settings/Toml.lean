import GeoPartition.Proofs.Settings.Json
import GeoPartition.Proofs.Toml.Document
import GeoPartition.Settings.Toml

/-!
# Settings through TOML

**Theorem (`ofToml_toToml`).** Settings can be written exactly if their numbers have 63 bits. What
is written is read back if the settings can be used, and refused otherwise, as it is in JSON.

A setting is written on a line of its own, and the number of features only if it is limited
(`toToml_eq`). The settings that are left out have the value that was not written.
-/

namespace GeoPartition.Settings

open Toml (Spells IsBare IsValue IsBoolean line)

/-! ## Writing -/

/-- The fields that are written. -/
def written (s : Settings) : List Field :=
  Field.all.filter fun f => f ≠ .maxFeatures ∨ s.maxFeatures.isSome

/-- The text of each setting. -/
def fieldText (s : Settings) : Field → List Char
  | .precision => Nat.toDigits 10 s.precision.toNat
  | .maxFeatures => s.maxFeatures.elim [] fun n => Nat.toDigits 10 n.toNat
  | .parallel => boolText s.parallel
  | .skipInvalid => boolText s.skipInvalid

/-- The numbers of the settings have 63 bits. -/
def FitsToml (s : Settings) : Prop :=
  s.precision.toNat < 2 ^ 63 ∧ ∀ n ∈ s.maxFeatures, n.toNat < 2 ^ 63

theorem integerText?_of_lt {n : UInt64} (h : n.toNat < 2 ^ 63) :
    integerText? n = some (Nat.toDigits 10 n.toNat) :=
  if_pos h

theorem integerText?_of_not_lt {n : UInt64} (h : ¬ n.toNat < 2 ^ 63) : integerText? n = none :=
  if_neg h

theorem written_of_none {s : Settings} (h : s.maxFeatures = none) :
    s.written = [.precision, .parallel, .skipInvalid] := by
  simp [written, Field.all, h]

theorem written_of_some {s : Settings} {n : UInt64} (h : s.maxFeatures = some n) :
    s.written = Field.all := by
  simp [written, Field.all, h]

theorem toToml_of_fitsToml {s : Settings} (h : s.FitsToml) : s.toToml =
    some (String.ofList (s.written.flatMap fun f => line f.key (s.fieldText f))) := by
  obtain ⟨hprecision, hmax⟩ := h
  unfold toToml
  rw [integerText?_of_lt hprecision]
  cases hs : s.maxFeatures with
  | none =>
    rw [written_of_none hs]
    refine congrArg (fun l => some (String.ofList l)) ?_
    simp only [List.flatMap_cons, List.flatMap_nil, List.append_nil, List.append_assoc, fieldText]
    rfl
  | some n =>
    dsimp only
    rw [integerText?_of_lt (hmax n hs), written_of_some hs]
    refine congrArg (fun l => some (String.ofList l)) ?_
    simp only [Field.all, List.flatMap_cons, List.flatMap_nil, List.append_nil, List.append_assoc,
      fieldText, hs, Option.elim_some]
    rfl

/-- **What can be written** are the settings whose numbers have 63 bits. -/
theorem isSome_toToml_iff (s : Settings) : s.toToml.isSome ↔ s.FitsToml := by
  refine ⟨fun h => ?_, fun h => by rw [toToml_of_fitsToml h]; rfl⟩
  unfold toToml at h
  refine ⟨?_, fun n hn => ?_⟩
  · by_contra hprecision
    rw [integerText?_of_not_lt hprecision] at h
    cases h
  · by_contra hmax
    rw [Option.mem_def] at hn
    rw [hn] at h
    dsimp only at h
    rw [integerText?_of_not_lt hmax] at h
    cases hprecision : integerText? s.precision <;> rw [hprecision] at h <;> cases h

/-! ## Reading -/

/-- The value of each setting that is written. -/
def fieldEntry (s : Settings) : Field → Toml.Value
  | .precision => .integer s.precision.toNat
  | .maxFeatures => .integer (s.maxFeatures.elim 0 (·.toNat))
  | .parallel => .boolean s.parallel
  | .skipInvalid => .boolean s.skipInvalid

theorem isBare_key (f : Field) : IsBare f.key.toList := by
  have hall : f.key.toList.all Toml.isBareKeyChar := by cases f <;> rfl
  have hne : f.key.toList ≠ [] := by cases f <;> nofun
  exact ⟨hne, List.all_eq_true.1 hall⟩

theorem nodup_map_key : (Field.all.map Field.key).Nodup := by
  decide

theorem isBoolean_boolText (b : Bool) : IsBoolean (boolText b) b := by
  cases b with
  | false => exact .false
  | true => exact .true

theorem spells_fieldText {s : Settings} (h : s.FitsToml) {f : Field} (hf : f ∈ s.written) :
    IsValue Toml.maxDepth (s.fieldText f) ∧ Spells 0 (s.fieldText f) (s.fieldEntry f) := by
  have hinteger {n : ℕ} (hn : n < 2 ^ 63) : IsValue Toml.maxDepth (Nat.toDigits 10 n) ∧
      Spells 0 (Nat.toDigits 10 n) (.integer n) :=
    ⟨.scalar (.integer (Toml.isInteger_toDigits hn)), (Toml.isInteger_toDigits hn).spells⟩
  have hboolean (b : Bool) : IsValue Toml.maxDepth (boolText b) ∧
      Spells 0 (boolText b) (.boolean b) :=
    ⟨.scalar (.boolean (isBoolean_boolText b)), (isBoolean_boolText b).spells⟩
  cases f with
  | precision => exact hinteger h.1
  | maxFeatures =>
    unfold fieldText fieldEntry
    cases hs : s.maxFeatures with
    | none => simp [written, hs] at hf
    | some n => exact hinteger (h.2 n hs)
  | parallel => exact hboolean s.parallel
  | skipInvalid => exact hboolean s.skipInvalid

theorem find?_key (f : Field) : Field.all.find? (·.key = f.key) = some f := by
  cases f <;> decide

theorem readEntry_fieldEntry {s : Settings} {f : Field} (hf : f ∈ s.written) (t : Settings) :
    t.readEntry f (s.fieldEntry f) = .ok (s.putField f t) := by
  have hnatural (n : ℕ) : (Toml.Value.integer n).natural "usize" = .ok n := by
    simp [Toml.Value.natural]
  cases f with
  | precision => simp [readEntry, fieldEntry, putField, hnatural, Functor.map, Except.map]
  | maxFeatures =>
    cases hs : s.maxFeatures with
    | none => simp [written, hs] at hf
    | some n => simp [readEntry, fieldEntry, putField, hs, hnatural, Functor.map, Except.map]
  | parallel => rfl
  | skipInvalid => rfl

/-- Entries of settings are put into the settings one by one. -/
theorem foldlM_readEntry {s : Settings} {l : List Field} (hl : ∀ f ∈ l, f ∈ s.written)
    (t : Settings) :
    (l.map fun f => (f.key, s.fieldEntry f)).foldlM (fun t e =>
        match Field.all.find? (·.key = e.1) with
        | some f => t.readEntry f e.2
        | none => .ok t) t =
      (.ok (l.foldl (fun t f => s.putField f t) t) : Except DataError Settings) := by
  induction l generalizing t with
  | nil => rfl
  | cons f l ih =>
    obtain ⟨hf, hl⟩ := List.forall_mem_cons.1 hl
    rw [List.map_cons, List.foldlM_cons]
    simp only [find?_key, readEntry_fieldEntry hf]
    exact ih hl (s.putField f t)

/-- **The entries that are written are the settings**: what is left out has its default. -/
theorem ofEntries_written (s : Settings) :
    ofEntries (s.written.map fun f => (f.key, s.fieldEntry f)) = .ok s := by
  refine (foldlM_readEntry (fun _ hf => hf) {}).trans (congrArg Except.ok ?_)
  obtain ⟨precision, maxFeatures, parallel, skipInvalid⟩ := s
  cases maxFeatures <;> rfl

theorem ofText?_written {s : Settings} (h : s.FitsToml) :
    Toml.ofText? (s.written.flatMap fun f => line f.key (s.fieldText f)) =
      some (s.written.map fun f => (f.key, s.fieldEntry f)) :=
  Toml.ofText?_lines (fun f _ => isBare_key f) (fun _ hf => (spells_fieldText h hf).1)
    (fun _ hf => (spells_fieldText h hf).2)
    (nodup_map_key.sublist (List.filter_sublist.map Field.key))

theorem ofToml_of_toToml {s : Settings} {text : String} (h : s.toToml = some text) :
    ofToml text =
      s.check.mapError (fun e => .data (.invalidSettings e)) >>= fun _ => pure s := by
  have hfits : s.FitsToml := (isSome_toToml_iff s).1 (h ▸ rfl)
  rw [toToml_of_fitsToml hfits] at h
  obtain rfl := Option.some.inj h
  rw [ofToml, String.toList_ofList, ofText?_written hfits]
  simp only [ofEntries_written]
  rfl

/-- **Settings through TOML.** Settings can be written exactly if their numbers are below `2^63`.
Exactly the settings that can be used are read back from what is written, and nothing else is read;
all others are refused with the fault of their check. So both notations give back the same. -/
theorem ofToml_toToml (s : Settings) :
    (s.toToml.isSome ↔
      s.precision.toNat ≤ 2 ^ 63 - 1 ∧ ∀ n ∈ s.maxFeatures, n.toNat ≤ 2 ^ 63 - 1) ∧
    ∀ text, s.toToml = some text →
      (∀ t, ofToml text = .ok t ↔ s.check = .ok () ∧ t = s) ∧
      (∀ e, ofToml text = .error (.data (.invalidSettings e)) ↔ s.check = .error e) ∧
      (∀ e, (DataError.invalidSettings e).message = (Ingest.Error.settings e).message) ∧
      (s.check = .ok () → ofToml text = .ok s ∧ ofJson s.toJson = .ok s) := by
  have hinj : Function.Injective fun e => Toml.Error.data (.invalidSettings e) := by
    rintro _ _ ⟨⟩
    rfl
  refine ⟨?_, fun text h => ?_⟩
  · rw [isSome_toToml_iff, FitsToml]
    simp only [Nat.le_sub_one_iff_lt (by positivity : 0 < 2 ^ 63)]
  · rw [ofToml_of_toToml h, ofJson_toJson_eq]
    exact ⟨fun _ => checked_eq_ok_iff, fun _ => checked_eq_error_iff hinj, fun _ => rfl,
      fun hcheck => ⟨checked_eq_ok_iff.2 ⟨hcheck, rfl⟩, checked_eq_ok_iff.2 ⟨hcheck, rfl⟩⟩⟩

/-- As many features as a document can say. -/
def largestLimit : Settings := ({} : Settings).withMaxFeatures 9223372036854775807

/-- The largest number is written and read back; the next one cannot be written. -/
theorem ofToml_toToml_largestLimit :
    ¬ (largestLimit.withMaxFeatures 9223372036854775808).toToml.isSome ∧
    ∃ text, largestLimit.toToml = some text ∧ largestLimit.check = .ok () ∧
      ofToml text = .ok largestLimit ∧ ofJson largestLimit.toJson = .ok largestLimit := by
  have hbeyond := (ofToml_toToml (largestLimit.withMaxFeatures 9223372036854775808)).1
  obtain ⟨hwritten, hread⟩ := ofToml_toToml largestLimit
  have hcheck : largestLimit.check = .ok () := by decide
  obtain ⟨text, htext⟩ := Option.isSome_iff_exists.1 (hwritten.2 ⟨by decide, by
    rintro n ⟨⟩
    decide⟩)
  refine ⟨fun h => ?_, text, htext, hcheck, (hread text htext).2.2.2 hcheck⟩
  exact absurd ((hbeyond.1 h).2 _ rfl) (by decide)

end GeoPartition.Settings
