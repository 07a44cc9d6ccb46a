import GeoPartition.Json.Decode
import GeoPartition.Json.Value
import GeoPartition.Proofs.Except

/-!
# Drafts that are values

A draft that is read as a value has no fault (`skip_of_ofDraft`), and how deep it may nest makes no
difference as long as it does not nest deeper (`ofDraft_of_nesting_le`). Both follow the draft, its
items and its members.
-/

namespace GeoPartition.Json

namespace Draft

mutual

/-- How deep the arrays and objects of a draft nest. -/
def nesting : Draft → ℕ
  | .array items _ => itemsNesting items + 1
  | .object members _ => membersNesting members + 1
  | .null | .bool _ | .number _ | .string _ | .brokenNumber _ | .broken _ => 0

def itemsNesting : List Draft → ℕ
  | [] => 0
  | d :: ds => max (nesting d) (itemsNesting ds)

def membersNesting : List (Lexeme × Draft) → ℕ
  | [] => 0
  | (_, d) :: rest => max (nesting d) (membersNesting rest)

end

end Draft

theorem skim_of_text {l : Lexeme} {s : List Char} (h : l.text = .ok s) : l.skim = .ok () := by
  fun_induction Lexeme.text l generalizing s with
  | case1 => rfl
  | case2 => cases h
  | case3 c rest ih =>
    obtain ⟨t, ht, -⟩ := map_eq_ok_iff.1 h
    exact ih ht
  | case4 n _ m rest _ ih =>
    obtain ⟨t, ht, -⟩ := map_eq_ok_iff.1 h
    exact ih ht
  | case5 => cases h
  | case6 => cases h
  | case7 => cases h
  | case8 => cases h
  | case9 n rest _ _ ih =>
    obtain ⟨t, ht, -⟩ := map_eq_ok_iff.1 h
    exact ih ht

open Value

/-! ## Values have no faults -/

mutual

/-- **What is a value has no fault.** -/
theorem skip_of_ofDraft (n : ℕ) (d : Draft) {v : Value} (h : ofDraft n d = .ok v) :
    d.skip = .ok () := by
  cases d with
  | null => rfl
  | bool b => rfl
  | number x => rfl
  | string l =>
    rw [ofDraft] at h
    obtain ⟨s, hs, -⟩ := bind_eq_ok_iff.1 h
    exact skim_of_text hs
  | array items ending =>
    cases n with
    | zero => cases h
    | succ n =>
      rw [ofDraft] at h
      obtain ⟨vs, hvs, h⟩ := bind_eq_ok_iff.1 h
      obtain ⟨_, rfl, -⟩ := bind_eq_ok_iff.1 h
      rw [Draft.skip, skipItems_of_itemsOfDraft n items hvs]
      rfl
  | object members ending =>
    cases n with
    | zero => cases h
    | succ n =>
      rw [ofDraft] at h
      obtain ⟨ms, hms, h⟩ := bind_eq_ok_iff.1 h
      obtain ⟨_, rfl, -⟩ := bind_eq_ok_iff.1 h
      rw [Draft.skip, skipMembers_of_membersOfDraft n members hms]
      rfl
  | brokenNumber f => cases h
  | broken f => cases h

theorem skipItems_of_itemsOfDraft (n : ℕ) (ds : List Draft) {vs : List Value}
    (h : itemsOfDraft n ds = .ok vs) : Draft.skipItems ds = .ok () := by
  cases ds with
  | nil => rfl
  | cons d ds =>
    rw [itemsOfDraft] at h
    obtain ⟨v, hv, h⟩ := bind_eq_ok_iff.1 h
    obtain ⟨vs, hvs, -⟩ := bind_eq_ok_iff.1 h
    rw [Draft.skipItems, skip_of_ofDraft n d hv]
    exact skipItems_of_itemsOfDraft n ds hvs

theorem skipMembers_of_membersOfDraft (n : ℕ) (ms : List (Lexeme × Draft))
    {found vs : List (String × Value)} (h : membersOfDraft n ms found = .ok vs) :
    Draft.skipMembers ms = .ok () := by
  cases ms with
  | nil => rfl
  | cons m ms =>
    obtain ⟨key, d⟩ := m
    rw [membersOfDraft] at h
    obtain ⟨name, hname, h⟩ := bind_eq_ok_iff.1 h
    obtain ⟨v, hv, h⟩ := bind_eq_ok_iff.1 h
    rw [Draft.skipMembers, skim_of_text hname]
    show (d.skip >>= fun _ => Draft.skipMembers ms) = _
    rw [skip_of_ofDraft n d hv]
    exact skipMembers_of_membersOfDraft n ms h

end

/-! ## The limit of nesting -/

mutual

/-- **The limit makes no difference** to a value that does not nest deeper. -/
theorem ofDraft_of_nesting_le {m n : ℕ} (d : Draft) {v : Value} (h : ofDraft m d = .ok v)
    (hn : d.nesting ≤ n) : ofDraft n d = .ok v := by
  cases d with
  | null => exact h
  | bool b => exact h
  | number x => exact h
  | string l => exact h
  | array items ending =>
    cases m with
    | zero => cases h
    | succ m =>
      rw [Draft.nesting] at hn
      obtain ⟨n, rfl⟩ := Nat.exists_eq_add_of_le' (Nat.le_trans (Nat.le_add_left 1 _) hn)
      rw [ofDraft] at h ⊢
      obtain ⟨vs, hvs, h⟩ := bind_eq_ok_iff.1 h
      rw [itemsOfDraft_of_nesting_le items hvs (Nat.le_of_succ_le_succ hn)]
      exact h
  | object members ending =>
    cases m with
    | zero => cases h
    | succ m =>
      rw [Draft.nesting] at hn
      obtain ⟨n, rfl⟩ := Nat.exists_eq_add_of_le' (Nat.le_trans (Nat.le_add_left 1 _) hn)
      rw [ofDraft] at h ⊢
      obtain ⟨vs, hvs, h⟩ := bind_eq_ok_iff.1 h
      rw [membersOfDraft_of_nesting_le members hvs (Nat.le_of_succ_le_succ hn)]
      exact h
  | brokenNumber f => cases h
  | broken f => cases h

theorem itemsOfDraft_of_nesting_le {m n : ℕ} (ds : List Draft) {vs : List Value}
    (h : itemsOfDraft m ds = .ok vs) (hn : Draft.itemsNesting ds ≤ n) :
    itemsOfDraft n ds = .ok vs := by
  cases ds with
  | nil => exact h
  | cons d ds =>
    rw [Draft.itemsNesting, Nat.max_le] at hn
    rw [itemsOfDraft] at h ⊢
    obtain ⟨v, hv, h⟩ := bind_eq_ok_iff.1 h
    obtain ⟨vs, hvs, h⟩ := bind_eq_ok_iff.1 h
    rw [ofDraft_of_nesting_le d hv hn.1]
    show (itemsOfDraft n ds >>= fun vs => pure (v :: vs)) = _
    rw [itemsOfDraft_of_nesting_le ds hvs hn.2]
    exact h

theorem membersOfDraft_of_nesting_le {m n : ℕ} (ms : List (Lexeme × Draft))
    {found vs : List (String × Value)} (h : membersOfDraft m ms found = .ok vs)
    (hn : Draft.membersNesting ms ≤ n) : membersOfDraft n ms found = .ok vs := by
  cases ms with
  | nil => exact h
  | cons e ms =>
    obtain ⟨key, d⟩ := e
    rw [Draft.membersNesting, Nat.max_le] at hn
    rw [membersOfDraft] at h ⊢
    obtain ⟨name, hname, h⟩ := bind_eq_ok_iff.1 h
    obtain ⟨v, hv, h⟩ := bind_eq_ok_iff.1 h
    rw [hname]
    show (ofDraft n d >>= fun v => membersOfDraft n ms _) = _
    rw [ofDraft_of_nesting_le d hv hn.1]
    exact membersOfDraft_of_nesting_le ms h hn.2

end

end GeoPartition.Json
