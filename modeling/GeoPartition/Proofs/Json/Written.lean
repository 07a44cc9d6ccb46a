import GeoPartition.Json.Value
import GeoPartition.Proofs.Json.Grammar

/-!
# Values that are written

A value that is written spells the draft with the same strings and numbers: single values by their
own tokens, and an object by its members, one a line, if each of them does (`spells_object`). So a
document that is written is read again member by member, without regard to its layout.
-/

namespace GeoPartition.Json

/-! ## Tokens -/

theorem isBlanks_newline (level : ℕ) : IsBlanks (Value.newline level) := by
  intro c hc
  rcases List.mem_cons.1 hc with rfl | hc
  · rfl
  · rw [List.eq_of_mem_replicate hc]
    rfl

/-- A natural number as it is read. -/
def Numeral.ofNat (n : ℕ) : Numeral := ⟨false, Nat.toDigits 10 n, [], 0, true⟩

theorem isWhole_toDigits (n : ℕ) : IsWhole (Nat.toDigits 10 n) := by
  refine ⟨⟨Nat.toDigits_ne_nil, fun _ => Text.isDigit_of_mem_toDigits⟩, fun hhead => ?_⟩
  rw [Text.eq_zero_of_head?_toDigits hhead, Nat.toDigits_zero]

theorem tokens_toDigits (n : ℕ) {rest : List Char} (h : Stops rest) :
    tokens (Nat.toDigits 10 n ++ rest) = .number (.ofNat n) :: tokens rest := by
  refine tokens_digit (isWhole_toDigits n) ?_
  rw [(isWhole_toDigits n).scan fun c hc => (h c hc).1]
  cases rest with
  | nil => rfl
  | cons c rest =>
    obtain ⟨-, hpoint, he, hE⟩ := h c rfl
    simp [scanFraction, scanExponent, hpoint, he, hE, Numeral.ofNat]

/-! ## Single values -/

theorem spells_null (level : ℕ) : Spells (Value.null.pretty level) .null :=
  .of_token (fun rest _ => tokens_cons (by decide) ('u' :: 'l' :: 'l' :: rest)) fun _ _ => rfl

theorem spells_bool (b : Bool) (level : ℕ) : Spells ((Value.bool b).pretty level) (.bool b) := by
  refine .of_token (t := .bool b) (fun rest _ => ?_) fun _ _ => rfl
  cases b with
  | false => exact tokens_cons (by decide) ('a' :: 'l' :: 's' :: 'e' :: rest)
  | true => exact tokens_cons (by decide) ('r' :: 'u' :: 'e' :: rest)

theorem spells_natural (n level : ℕ) :
    Spells ((Value.number (.natural n)).pretty level) (.number (.ofNat n)) :=
  .of_token (fun _ => tokens_toDigits n) fun _ _ => rfl

/-! ## Objects -/

theorem spellsKey_line (level : ℕ) (key : String) :
    SpellsKey (Value.newline level ++ quote key.toList) (.spelling key.toList) :=
  (isQuoted_quote key.toList).spellsKey.padded
    ⟨Value.newline level, [], isBlanks_newline level, isBlanks_nil, by simp⟩

theorem Spells.behindColon {s : List Char} {d : Draft} (h : Spells s d) : Spells (' ' :: s) d :=
  h.padded ⟨[' '], [], isBlanks_blank, isBlanks_nil, by simp⟩

section

variable {ι : Type} (key : ι → String) (value : ι → Value) (draft : ι → Draft)

theorem spellsMembers {l : List ι} (hl : l ≠ []) (level : ℕ)
    (h : ∀ i ∈ l, Spells ((value i).pretty level) (draft i)) :
    SpellsMembers (Value.prettyMembers level (l.map fun i => (key i, value i)))
      (l.map fun i => (.spelling (key i).toList, draft i)) := by
  induction l with
  | nil => exact absurd rfl hl
  | cons i l ih =>
    obtain ⟨hi, hrest⟩ := List.forall_mem_cons.1 h
    cases l with
    | nil =>
      have hlast := SpellsMembers.last (spellsKey_line level (key i)) hi.behindColon
      simpa [Value.prettyMembers] using hlast
    | cons j l =>
      have hcons := (ih nofun hrest).cons (spellsKey_line level (key i)) hi.behindColon
      simpa [Value.prettyMembers] using hcons

/-- **Objects are read as they are written**, if their members are. -/
theorem spells_object (l : List ι) (level : ℕ)
    (h : ∀ i ∈ l, Spells ((value i).pretty (level + 1)) (draft i)) :
    Spells ((Value.object (l.map fun i => (key i, value i))).pretty level)
      (.object (l.map fun i => (.spelling (key i).toList, draft i)) (.ok ())) := by
  cases l with
  | nil => exact spells_emptyObject isBlanks_nil
  | cons i l =>
    have hmembers := spellsMembers key value draft (List.cons_ne_nil i l) (level + 1) h
    simpa [Value.pretty] using Spells.object (hmembers.padded (isBlanks_newline level))

end

end GeoPartition.Json
