import GeoPartition.Command.Run
import GeoPartition.Proofs.Bucket.Classification
import GeoPartition.Proofs.Geohash.Scale
import GeoPartition.Proofs.Ingest.Accounting

/-!
# Points

A point can be asked for in five ways: by itself, as a box without extent, as a shape, as the only
feature of a run, and on the command line.

**Theorem (`points_agree`).** All of them come to one outcome, which is that of the code. The code
exists exactly if the coordinate is valid, and the error is that of the check. It has as many
symbols as the precision says, and they are the segments of the path.

**Encoders with checks of their own.** The codes come from an encoder that may reject numbers of
symbols and coordinates too. What a partitioner gives it, it accepts (`encodeThrough_eq`): the
precision was checked when the partitioner was made, and clamping leaves valid degrees on the globe.

Each way is rewritten as the code with something done to it, so the ways are compared only with the
code and not with each other.
-/

namespace GeoPartition

open Binary64

/-! ## Encoders with checks of their own -/

section encoders

/-- Is a coordinate within the limits of both axes? -/
def Coordinate.OnGlobe (c : Coordinate) : Prop :=
  ∀ axis : Axis, axis.floor.le (c.on axis) = true ∧
    (c.on axis).le (Binary64.ofNat axis.limit) = true

set_option maxRecDepth 2000 in
theorem Axis.ceiling_le_limit (axis : Axis) :
    axis.ceiling.le (Binary64.ofNat axis.limit) = true := by
  cases axis <;> decide

theorem Coordinate.onGlobe_clamp {c : Coordinate} (h : c.check = .ok ()) : c.clamp.OnGlobe := by
  intro axis
  obtain ⟨hlo, hhi⟩ := Axis.encodes_clamp (checkAxis_on h axis)
  rw [on_clamp]
  exact ⟨hlo, le_trans hhi axis.ceiling_le_limit⟩

variable {ε : Type} {encoder : ℕ → Coordinate → Except ε Code}

/-- **What is relied on.** An encoder rejects only numbers of symbols that codes cannot have, and
coordinates off the globe. -/
def Geohash.RejectsOnlyInvalid (encoder : ℕ → Coordinate → Except ε Code) : Prop :=
  ∀ n c, Partitioner.isPrecision n → c.OnGlobe → encoder n c = .ok (code n c)

/-- The code of a coordinate, by an encoder with checks of its own. -/
def Partitioner.encodeThrough (p : Partitioner) (encoder : ℕ → Coordinate → Except ε Code)
    (c : Coordinate) : Except (Coordinate.Error ⊕ ε) Code := do
  c.check.mapError .inl
  (encoder p.precision c.clamp).mapError .inr

/-- **The checks of an encoder never fail** behind those of a partitioner. -/
theorem Partitioner.encodeThrough_eq (h : Geohash.RejectsOnlyInvalid encoder) (p : Partitioner)
    (c : Coordinate) : p.encodeThrough encoder c = (p.encode c).mapError .inl := by
  unfold encodeThrough encode
  cases hc : c.check with
  | error e => rfl
  | ok u =>
    have hcode := h p.precision c.clamp ⟨p.one_le, p.le_max⟩ (Coordinate.onGlobe_clamp hc)
    show (encoder p.precision c.clamp).mapError Sum.inr = _
    rw [hcode]
    rfl

/-- Why an encoder with checks of its own gives no code. -/
inductive Geohash.Error
  | outside (c : Coordinate)
  | length (n : ℕ)
deriving DecidableEq

/-- An encoder that looks at the range of the coordinate first and at the number of symbols next. It
lets pass what is not a number. -/
def Geohash.checkedCode (n : ℕ) (c : Coordinate) : Except Geohash.Error Code :=
  let isOff (axis : Axis) : Bool :=
    (c.on axis).lt axis.floor || (Binary64.ofNat axis.limit).lt (c.on axis)
  if isOff .longitude || isOff .latitude then .error (.outside c)
  else if ¬ Partitioner.isPrecision n then .error (.length n)
  else .ok (code n c)

theorem Geohash.rejectsOnlyInvalid_checkedCode : RejectsOnlyInvalid checkedCode := by
  intro n c hn hc
  have hoff (axis : Axis) : (c.on axis).lt axis.floor = false ∧
      (Binary64.ofNat axis.limit).lt (c.on axis) = false := by
    obtain ⟨hlo, hhi⟩ := hc axis
    exact ⟨(lt_false_iff (ne_nan_of_le_right hlo) (ne_nan_of_le_left hlo)).2 hlo,
      (lt_false_iff (ne_nan_of_le_right hhi) (ne_nan_of_le_left hhi)).2 hhi⟩
  simp [checkedCode, hoff, hn]

end encoders

namespace Partitioner

variable {p : Partitioner} {c : Coordinate}

/-! ## Codes -/

theorem encode_eq_error_iff {e : Coordinate.Error} :
    p.encode c = .error e ↔ c.check = .error e := by
  unfold encode
  cases c.check <;> simp [bind, Except.bind, pure, Except.pure]

/-- **A code of a partitioner**, and what its path shows of it: all of its symbols, each as a
segment. So the path is never empty, nor that of a region. -/
structure IsCode (p : Partitioner) (s : Code) : Prop where
  length : s.length = p.precision
  symbols : ∀ x ∈ s, x ∈ Geohash.alphabet
  segments : (Bucket.cell s).path.toList.splitOn Bucket.separator = s.map fun x => [x]
  depth : (Bucket.cell s).depth = p.precision
  notRegion : Region.ofName? (Bucket.cell s).path = none
  notEmpty : (Bucket.cell s).path ≠ ""

theorem IsCode.ne_nil {s : Code} (h : p.IsCode s) : s ≠ [] := by
  rintro rfl
  exact absurd p.one_le (by simp [← h.length])

theorem isCode_of_encode {s : Code} (h : p.encode c = .ok s) : p.IsCode s := by
  obtain ⟨-, rfl⟩ := encode_eq_ok_iff.1 h
  have hlength := Geohash.length_code p.precision c.clamp
  have hsymbols : ∀ x ∈ Geohash.code p.precision c.clamp, x ∈ Geohash.alphabet :=
    fun x => Geohash.mem_alphabet_of_mem_code
  have hne : Geohash.code p.precision c.clamp ≠ [] := by
    rw [← List.length_pos_iff, hlength]
    exact p.one_le
  have hseparator : Bucket.separator ∉ Geohash.code p.precision c.clamp :=
    fun hmem => absurd (hsymbols _ hmem) (by decide)
  refine ⟨hlength, hsymbols, Bucket.splitOn_toList_path hne hseparator, hlength, ?_, ?_⟩
  · rw [Option.eq_none_iff_forall_ne_some]
    intro r hr
    cases Bucket.ofName?_path.1 hr
  · rw [Ne, Bucket.path_eq_empty_iff (by simpa using hne)]
    simp

theorem IsCode.ofCodes_self {s : Code} (h : p.IsCode s) : Bucket.ofCodes s s = .cell s := by
  rw [Bucket.ofCodes_self h.ne_nil, Geohash.lowercase_eq_self h.symbols]

/-! ## The ways to ask -/

theorem bucketOfPoint_eq_map (p : Partitioner) (c : Coordinate) :
    p.bucketOfPoint c = (p.encode c).map .cell := by
  unfold bucketOfPoint
  cases h : p.encode c with
  | error e => rfl
  | ok s => exact congrArg Except.ok (isCode_of_encode h).ofCodes_self

theorem ofPrecision_precision (p : Partitioner) : ofPrecision p.precision = .ok p :=
  dif_pos ⟨p.one_le, p.le_max⟩

end Partitioner

namespace Ingest

open GeoJson (Feature)

variable {fs : List Feature} {f : Feature} {p : Partitioner} {s : Settings}

theorem looked_singleton (h : s.maxFeatures ≠ some 0) : looked [f] s = [f] := by
  unfold looked limit
  cases hmax : s.maxFeatures with
  | none => rfl
  | some n =>
    have hn : n.toNat ≠ 0 := fun h0 => h (hmax.trans (congrArg some (UInt64.toNat_inj.1 h0)))
    rw [List.take_of_length_le]
    simp only [List.length_singleton]
    omega

/-- A run that looks at one feature has one answer. -/
theorem isAnswer_iff_of_looked (h : looked fs s = [f]) (r : Except FeatureError Tally) :
    IsAnswer fs p s r ↔ r = features fs p s := by
  cases r with
  | ok t => rw [isAnswer_ok_iff, eq_comm]
  | error e =>
    by_cases hs : s.parallel = true
    · rw [isAnswer_error_iff hs, features_eq, h]
      simp only [List.mem_singleton, exists_eq_left, List.findSome?_singleton]
      cases fault? s.skipInvalid (bucket p f) <;> simp [eq_comm]
    · rw [IsAnswer, if_neg hs, eq_comm]

/-- **A strict run over one feature** has its fault, or the tally of its outcome. -/
theorem features_strict_of_looked (h : looked fs s = [f]) (hs : s.skipInvalid = false) :
    features fs p s = (bucket p f).map fun o => tallied .empty (.ok o) := by
  rw [features_eq, h, hs, List.findSome?_singleton]
  cases hb : bucket p f with
  | error e => rfl
  | ok o => simp [fault?, tallyOf, hb, Except.map]

/-- A position has the values of a coordinate, and any others. -/
theorem bucket_point (p : Partitioner) (c : Coordinate) (rest : List Binary64) :
    bucket p ⟨some (.point (c.lon :: c.lat :: rest))⟩ =
      ((p.encode c).map fun s => some (.cell s)).mapError .coordinate := by
  show ((some <$> p.bucketOfPoint c).mapError FeatureError.coordinate) = _
  rw [Partitioner.bucketOfPoint_eq_map]
  cases p.encode c <;> rfl

end Ingest

theorem Command.run_encode {p : Partitioner} {depth : UInt64} (h : depth.toNat = p.precision)
    (read : String → Except Ingest.FileError String) (c : Coordinate) :
    Command.run read (.encode c.lon c.lat depth) =
      ((p.encode c).map fun s =>
        String.ofList s ++ "\n" ++ (Bucket.cell s).path ++ "\n").mapError .coordinate := by
  unfold Command.run
  simp only [h, p.ofPrecision_precision]
  show ((p.encode c).mapError Command.Error.coordinate >>= fun s => _) = _
  cases hs : p.encode c with
  | error e => rfl
  | ok s =>
    show Except.ok _ = Except.ok _
    rw [(Partitioner.isCode_of_encode hs).ofCodes_self]

namespace Partitioner

/-- **All ways to ask for a point agree.** The checks of an encoder that rejects only what is
invalid never fail. A coordinate has a code exactly if it is valid, and otherwise the error of its
check. The bucket of the point, of the box between it and itself, and of its shape are the cell of
the code. So is what a strict run counts over one feature with that point, and what the command line
shows behind the code. -/
theorem points_agree {ε : Type} {encoder : ℕ → Coordinate → Except ε Code}
    (h : Geohash.RejectsOnlyInvalid encoder) (p : Partitioner) (c : Coordinate) :
    p.encodeThrough encoder c = (p.encode c).mapError .inl ∧
    ((∃ s, p.encode c = .ok s) ↔ c.check = .ok ()) ∧
    (∀ e, p.encode c = .error e ↔ c.check = .error e) ∧
    (∀ s, p.encode c = .ok s → p.IsCode s) ∧
    p.bucketOfPoint c = (p.encode c).map .cell ∧
    p.bucketOfRect (.ofCorners c c) = (p.encode c).map .cell ∧
    p.bucketOfShape (.point c) = (p.encode c).map (fun s => some (.cell s)) ∧
    (∀ (rest : List Binary64) (s : Settings) (r : Except Ingest.FeatureError Tally),
      s.skipInvalid = false → s.maxFeatures ≠ some 0 →
      (Ingest.IsAnswer [⟨some (.point (c.lon :: c.lat :: rest))⟩] p s r ↔
        r = ((p.encode c).map fun s => Tally.empty.record (Bucket.cell s).path).mapError
          .coordinate)) ∧
    ∀ (read : String → Except Ingest.FileError String) (depth : UInt64),
      depth.toNat = p.precision →
      Command.run read (.encode c.lon c.lat depth) =
        ((p.encode c).map fun s =>
          String.ofList s ++ "\n" ++ (Bucket.cell s).path ++ "\n").mapError .coordinate := by
  refine ⟨encodeThrough_eq h p c, ?_, fun e => encode_eq_error_iff, fun s => isCode_of_encode,
    bucketOfPoint_eq_map p c, ?_, ?_, fun rest s r hs hmax => ?_,
    fun read depth hdepth => Command.run_encode hdepth read c⟩
  · simp only [encode_eq_ok_iff, exists_and_left, exists_eq, and_true]
  · rw [← bucketOfPoint_eq, bucketOfPoint_eq_map]
  · rw [bucketOfShape, bucketOfPoint_eq_map]
    cases p.encode c <;> rfl
  · have hlooked := Ingest.looked_singleton (f := ⟨some (.point (c.lon :: c.lat :: rest))⟩) hmax
    rw [Ingest.isAnswer_iff_of_looked hlooked, Ingest.features_strict_of_looked hlooked hs,
      Ingest.bucket_point]
    cases p.encode c <;> rfl

set_option maxRecDepth 2000 in
/-- A place, and one off the globe, with an encoder that would reject the latter too. -/
theorem points_agree_checkedCode :
    encodeThrough ⟨3, by decide, by decide⟩ Geohash.checkedCode ⟨.ofNat 5, .ofNat 15⟩ =
      .ok ['s', '4', 'e'] ∧
    Command.run (fun _ => .error .missing) (.encode (.ofNat 5) (.ofNat 15) 3) =
      .ok "s4e\ns/4/e\n" ∧
    Ingest.IsAnswer [⟨some (.point [.ofNat 200, .ofNat 15, .ofNat 7])⟩]
      ⟨3, by decide, by decide⟩ { parallel := true, skipInvalid := false }
      (.error (.coordinate (.outside .longitude (.ofNat 200)))) := by
  have hcode : encode ⟨3, by decide, by decide⟩ ⟨.ofNat 5, .ofNat 15⟩ = .ok ['s', '4', 'e'] := by
    decide
  have herror : encode ⟨3, by decide, by decide⟩ ⟨.ofNat 200, .ofNat 15⟩ =
      .error (.outside .longitude (.ofNat 200)) := by
    decide
  obtain ⟨hthrough, -, -, -, -, -, -, -, hcommand⟩ :=
    points_agree Geohash.rejectsOnlyInvalid_checkedCode ⟨3, by decide, by decide⟩
      ⟨.ofNat 5, .ofNat 15⟩
  obtain ⟨-, -, -, -, -, -, -, hrun, -⟩ :=
    points_agree Geohash.rejectsOnlyInvalid_checkedCode ⟨3, by decide, by decide⟩
      ⟨.ofNat 200, .ofNat 15⟩
  refine ⟨hthrough.trans ?_, (hcommand _ 3 rfl).trans ?_, (hrun [.ofNat 7] _ _ rfl ?_).2 ?_⟩
  · rw [hcode]
    rfl
  · rw [hcode]
    rfl
  · decide
  · rw [herror]
    rfl

end Partitioner

end GeoPartition
