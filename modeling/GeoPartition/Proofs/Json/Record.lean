import GeoPartition.Json.Decode
import GeoPartition.Proofs.Json.Written

/-!
# Records that are read back

An object that gives fields of a record, each once, is read field by field in the order of its
members, whatever else stands between them (`Gives.readDraft`): what a reader makes of a member is
said by a function that puts the field into the record. So a record is read back if each of its
fields is (`readDraft_object`).
-/

namespace GeoPartition.Json

theorem number?_ofNat {n : ℕ} (h : n < UInt64.size) :
    (Numeral.ofNat n).number? = some (.natural n) := by
  have hdigits : Nat.ofDigitChars 10 (Nat.toDigits 10 n) 0 = n := Nat.ofDigitChars_ten_toDigits
  simp [Numeral.number?, Numeral.ofNat, hdigits, h]

theorem natural_ofNat {n : ℕ} (h : n < UInt64.size) (expected : String) :
    (Draft.number (.ofNat n)).natural expected = .ok n := by
  simp [Draft.natural, number?_ofNat h]

namespace Record

variable {κ σ : Type} [DecidableEq κ] {r : Record κ σ}

/-- Members that give some fields of a record, each by what it does to the record, with members
that are passed over anywhere among them. -/
inductive Gives (r : Record κ σ) : List (Lexeme × Draft) → List (κ × (σ → σ)) → Prop
  | nil : Gives r [] []
  | field {key : Lexeme} {name : List Char} {d : Draft} {k : κ} {put : σ → σ}
      {ms : List (Lexeme × Draft)} {given : List (κ × (σ → σ))} (hkey : key.text = .ok name)
      (hfield : r.field? name = some k) (hread : ∀ record, r.read k d record = .ok (put record))
      (h : Gives r ms given) : Gives r ((key, d) :: ms) ((k, put) :: given)
  | other {key : Lexeme} {name : List Char} {d : Draft} {ms : List (Lexeme × Draft)}
      {given : List (κ × (σ → σ))} (hkey : key.text = .ok name) (hfield : r.field? name = none)
      (hskip : d.skip = .ok ()) (h : Gives r ms given) : Gives r ((key, d) :: ms) given

variable {ms : List (Lexeme × Draft)} {given : List (κ × (σ → σ))}

/-- **Members are read one by one.** -/
theorem Gives.foldlM (h : r.Gives ms given) (hnodup : (given.map Prod.fst).Nodup) (seen : List κ)
    (hseen : ∀ k ∈ given.map Prod.fst, k ∉ seen) (record : σ) :
    ms.foldlM r.readMember (seen, record) = .ok ((given.map Prod.fst).reverse ++ seen,
      given.foldl (fun record field => field.2 record) record) := by
  induction h generalizing seen record with
  | nil => rfl
  | @field key name d k put ms given hkey hfield hread _ ih =>
    obtain ⟨hk, hnodup⟩ := List.nodup_cons.1 hnodup
    obtain ⟨hkseen, hseen⟩ := List.forall_mem_cons.1 hseen
    have hmember : r.readMember (seen, record) (key, d) = .ok (k :: seen, put record) := by
      simp [readMember, hkey, orFlaw, Except.mapError, hfield, hkseen, hread, bind, Except.bind,
        pure, Except.pure]
    have hseen' : ∀ j ∈ given.map Prod.fst, j ∉ k :: seen := fun j hj => by
      rw [List.mem_cons, not_or]
      exact ⟨fun h => hk (h ▸ hj), hseen j hj⟩
    rw [List.foldlM_cons, hmember]
    show List.foldlM r.readMember (k :: seen, put record) ms = _
    rw [ih hnodup (k :: seen) hseen' (put record)]
    simp
  | @other key name d ms given hkey hfield hskip _ ih =>
    have hmember : r.readMember (seen, record) (key, d) = .ok (seen, record) := by
      simp [readMember, hkey, orFlaw, Except.mapError, hfield, hskip, bind, Except.bind, pure,
        Except.pure]
    rw [List.foldlM_cons, hmember]
    exact ih hnodup seen hseen record

/-- **Objects are read field by field**, whatever else they hold, if no field that is required is
left out. -/
theorem Gives.readDraft (h : r.Gives ms given) (hnodup : (given.map Prod.fst).Nodup)
    (hall : r.required → ∀ k ∈ r.fields, k ∈ given.map Prod.fst) (start : σ) :
    r.readDraft start (.object ms (.ok ())) =
      .ok (given.foldl (fun record field => field.2 record) start) := by
  have hfind (hrequired : r.required) :
      r.fields.find? (· ∉ (given.map Prod.fst).reverse ++ []) = none := by
    simpa [List.find?_eq_none] using hall hrequired
  simp only [Record.readDraft, h.foldlM hnodup [] (by simp) start, orFlaw, Except.mapError, bind,
    Except.bind]
  split
  · next hrequired hmissing =>
    rw [hfind hrequired] at hmissing
    cases hmissing
  · rfl

variable {draft : κ → Draft} {put : κ → σ → σ} {l : List κ}

omit [DecidableEq κ] in
theorem gives_written (hfield : ∀ k ∈ l, r.field? (r.key k).toList = some k)
    (hread : ∀ k ∈ l, ∀ record, r.read k (draft k) record = .ok (put k record)) :
    r.Gives (l.map fun k => (.spelling (r.key k).toList, draft k)) (l.map fun k => (k, put k)) := by
  induction l with
  | nil => exact .nil
  | cons k l ih =>
    obtain ⟨hkfield, hfield⟩ := List.forall_mem_cons.1 hfield
    obtain ⟨hkread, hread⟩ := List.forall_mem_cons.1 hread
    exact .field (text_spelling _) hkfield hkread (ih hfield hread)

/-- **What is written is read**, if no field that is required is left out. -/
theorem readDraft_object (hl : l.Nodup) (hfield : ∀ k ∈ l, r.field? (r.key k).toList = some k)
    (hread : ∀ k ∈ l, ∀ record, r.read k (draft k) record = .ok (put k record))
    (hall : r.required → ∀ k ∈ r.fields, k ∈ l) (start : σ) :
    r.readDraft start
        (.object (l.map fun k => (.spelling (r.key k).toList, draft k)) (.ok ())) =
      .ok (l.foldl (fun record k => put k record) start) := by
  have hkeys : (l.map fun k => (k, put k)).map Prod.fst = l := by simp [Function.comp_def]
  have hread := (gives_written hfield hread).readDraft (by rwa [hkeys]) (by rwa [hkeys]) start
  rwa [List.foldl_map] at hread

/-- A text is read as the draft that it spells. -/
theorem readText_of_spells {s : List Char} {d : Draft} (h : Spells s d) (start : σ) :
    r.readText start s = r.readDraft start d := by
  rw [readText, h.document]
  cases r.readDraft start d <;> rfl

end Record

end GeoPartition.Json
