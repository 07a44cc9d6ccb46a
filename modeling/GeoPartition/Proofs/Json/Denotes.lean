import GeoPartition.Proofs.Json.Embedded
import GeoPartition.Proofs.Json.Nesting
import GeoPartition.Proofs.Json.Written
import GeoPartition.Proofs.Keyed

/-!
# Texts that denote values

A text denotes a value if it is read as that value wherever it stands, as far as the limit of
nesting allows. A document that is read denotes its value (`denotes_of_ofText`), so it may be put
into another document; arrays and objects denote the values of their parts, in any layout
(`IsArray.denotes`, `IsObject.denotes`). An object holds the value of each of its members at its
key, if no key stands there twice, in whatever order they are written.
-/

namespace GeoPartition.Json

open Value

/-- A text is read as a value wherever it stands, as far as the limit of nesting allows. -/
def Denotes (s : List Char) (v : Value) : Prop := ∃ d, Spells s d ∧ ofDraft d.nesting d = .ok v

/-- How deep the arrays and objects of a text nest. -/
def nesting (s : List Char) : ℕ := (Document.ofText s).root.nesting

theorem Spells.denotes {s : List Char} {d : Draft} {v : Value} {n : ℕ} (h : Spells s d)
    (hv : ofDraft n d = .ok v) : Denotes s v :=
  ⟨d, h, ofDraft_of_nesting_le d hv le_rfl⟩

/-- **A text that is read denotes its value.** -/
theorem denotes_of_ofText {s : List Char} {v : Value} (h : Value.ofText s = .ok v) :
    Denotes s v := by
  obtain ⟨v, hv, h⟩ := bind_eq_ok_iff.1 h
  obtain ⟨_, hcomplete, h⟩ := bind_eq_ok_iff.1 h
  cases h
  have hspells := spells_of_document (congrArg (Document.mk _) hcomplete) (skip_of_ofDraft _ _ hv)
  exact hspells.denotes hv

/-- **A text that denotes a value is read** if it nests within the limit. -/
theorem Denotes.ofText {s : List Char} {v : Value} (h : Denotes s v)
    (hn : nesting s ≤ Value.maxDepth) : Value.ofText s = .ok v := by
  obtain ⟨d, hd, hv⟩ := h
  rw [nesting, hd.document] at hn
  rw [Value.ofText, hd.document]
  show (ofDraft maxDepth d >>= fun v => Except.ok () >>= fun _ => pure v) = _
  rw [ofDraft_of_nesting_le d hv hn]
  rfl

theorem Denotes.padded {s t : List Char} {v : Value} (h : Denotes t v) (hs : Padded s t) :
    Denotes s v :=
  h.imp fun _ hd => hd.imp_left (·.padded hs)

theorem denotes_null : Denotes ['n', 'u', 'l', 'l'] .null :=
  (spells_null 0).denotes (n := 0) rfl

theorem IsString.denotes {s : List Char} {t : String} (h : IsString s t) :
    Denotes s (.string t) := by
  obtain ⟨l, hl, htext⟩ := h
  have hspells : Spells s (.string l) := .of_token (fun rest _ => hl.spellsKey rest) fun _ _ => rfl
  refine hspells.denotes (n := 0) ?_
  rw [ofDraft, htext]
  show Except.ok (Value.string (String.ofList t.toList)) = _
  rw [String.ofList_toList]

/-! ## Arrays and objects -/

theorem itemsOfDraft_eq_ok {n : ℕ} {vs : List Value} {ds : List Draft}
    (h : List.Forall₂ (fun v d => ofDraft d.nesting d = .ok v) vs ds)
    (hn : Draft.itemsNesting ds ≤ n) : itemsOfDraft n ds = .ok vs := by
  induction h with
  | nil => rfl
  | @cons v d vs ds hd _ ih =>
    rw [Draft.itemsNesting, Nat.max_le] at hn
    rw [itemsOfDraft, ofDraft_of_nesting_le d hd hn.1]
    show (itemsOfDraft n ds >>= fun vs => pure (v :: vs)) = _
    rw [ih hn.2]
    rfl

/-- **Arrays** denote the values of their items. -/
theorem IsArray.denotes {s : List Char} {ts : List (List Char)} (h : IsArray s ts)
    {vs : List Value} (hvs : List.Forall₂ Denotes ts vs) : Denotes s (.array vs) := by
  obtain ⟨ds, hds, hall⟩ := h.spells (P := Spells) fun t ht => by
    obtain ⟨v, d, hd, -⟩ := exists_of_forall₂ hvs t ht
    exact ⟨d, hd, hd⟩
  have hitems : List.Forall₂ (fun v d => ofDraft d.nesting d = .ok v) vs ds := by
    refine forall₂_of_left (fun t v d ht hd => ?_) hvs hall
    obtain ⟨d', hd', hv⟩ := ht
    exact hd'.unique hd ▸ hv
  refine ⟨_, hds, ?_⟩
  rw [Draft.nesting, ofDraft, itemsOfDraft_eq_ok hitems le_rfl]
  rfl

/-- Members are put at their keys, one by one. -/
theorem membersOfDraft_eq_ok {n : ℕ} {vs : List (String × Value)} {ds : List (Lexeme × Draft)}
    (h : List.Forall₂ (fun e d => d.1.text = .ok e.1.toList ∧ ofDraft d.2.nesting d.2 = .ok e.2)
      vs ds) (hn : Draft.membersNesting ds ≤ n) (found : List (String × Value)) :
    membersOfDraft n ds found =
      .ok (vs.foldl (fun found e => Keyed.insertWith (fun _ new => new) e.1 e.2 found) found) := by
  induction h generalizing found with
  | nil => rfl
  | @cons e d vs ds hd _ ih =>
    obtain ⟨key, d⟩ := d
    obtain ⟨hkey, hv⟩ := hd
    rw [Draft.membersNesting, Nat.max_le] at hn
    rw [membersOfDraft, hkey]
    show (ofDraft n d >>= fun v => membersOfDraft n ds _) = _
    rw [ofDraft_of_nesting_le d hv hn.1]
    show membersOfDraft n ds _ = _
    rw [String.ofList_toList, ih hn.2]
    rfl

/-- **Objects** denote the values of their members, each at its key. -/
theorem IsObject.denotes {s : List Char} {ms : List (String × List Char)}
    (h : IsObject IsString s ms) (hnodup : (ms.map Prod.fst).Nodup) {vs : List (String × Value)}
    (hvs : List.Forall₂ (fun m e => e.1 = m.1 ∧ Denotes m.2 e.2) ms vs) :
    ∃ members, Denotes s (.object members) ∧ ∀ k, members.lookup k = vs.lookup k := by
  obtain ⟨ds, hds, hall⟩ := h.spells (K := fun key l => l.text = .ok key.toList)
    (P := fun m d => Spells m.2 d) IsString.exists_key fun m hm => by
      obtain ⟨e, -, d, hd, -⟩ := exists_of_forall₂ hvs m hm
      exact ⟨d, hd, hd⟩
  have hmembers : List.Forall₂
      (fun e d => d.1.text = .ok e.1.toList ∧ ofDraft d.2.nesting d.2 = .ok e.2) vs ds := by
    refine forall₂_of_left (fun m e d he hd => ?_) hvs hall
    obtain ⟨hkey, d', hd', hv⟩ := he
    exact ⟨hkey ▸ hd.1, hd'.unique hd.2 ▸ hv⟩
  have hlookup (k : String) :
      (vs.foldl (fun found e => Keyed.insertWith (fun _ new => new) e.1 e.2 found) []).lookup k =
        vs.lookup k := by
    rw [Keyed.lookup_foldl_insertWith .nil _ (Keyed.map_fst_eq hvs ▸ hnodup)
      fun _ _ => List.lookup_nil, List.lookup_nil, Option.or_none]
  refine ⟨_, ⟨_, hds, ?_⟩, hlookup⟩
  rw [Draft.nesting, ofDraft, membersOfDraft_eq_ok hmembers le_rfl]
  rfl

end GeoPartition.Json
