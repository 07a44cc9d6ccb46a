import Mathlib
import GeoPartition.Json.Draft
import GeoPartition.Json.Decode
import GeoPartition.Proofs.Except

/-!
# Tokens that are read as a value

Some tokens yield a draft if they are read as that draft, whatever follows them, and nothing behind
them is used up. An array or an object is yielded by its items or members, if each of them is
(`Yields.array`, `Yields.object`).

**Theorem (`yields_of_value`).** The converse: what is read without a fault is yielded by the tokens
that were used up. So it is read again wherever these tokens stand.

Reading takes at most two levels of the search for each token, so twice the number of the tokens is
enough for any of these.
-/

namespace GeoPartition.Json

/-- Some tokens are read as a draft, whatever follows them. -/
def Yields (ts : List Token) (d : Draft) : Prop :=
  ∀ n, 2 * ts.length ≤ n → ∀ tail, Draft.value n (ts ++ tail) = (d, tail)

theorem Yields.of_token {t : Token} {d : Draft}
    (h : ∀ n tail, Draft.value (n + 1) (t :: tail) = (d, tail)) : Yields [t] d := by
  intro n hn tail
  obtain ⟨n, rfl⟩ := Nat.exists_eq_add_of_le' (Nat.one_le_of_lt hn)
  exact h n tail

/-- A value has a first token, which opens it. -/
theorem Yields.exists_cons {ts : List Token} {d : Draft} (h : Yields ts d) :
    ∃ t us, ts = t :: us ∧ t ≠ .closeArray := by
  cases ts with
  | nil => cases congrArg Prod.snd (h 0 le_rfl [.null])
  | cons t us =>
    refine ⟨t, us, rfl, ?_⟩
    rintro rfl
    cases congrArg Prod.snd (h (2 * (us.length + 1)) le_rfl [.null])

/-! ## Arrays -/

/-- Some tokens are read as the items of an array, which end where it is closed. -/
def YieldsItems (ts : List Token) (ds : List Draft) : Prop :=
  (∃ t us, ts = t :: us ∧ t ≠ .closeArray) ∧ ∀ n, 2 * ts.length < n → ∀ tail,
    Draft.items n (ts ++ .closeArray :: tail) = (ds, .ok (), tail)

theorem YieldsItems.last {ts : List Token} {d : Draft} (h : Yields ts d) : YieldsItems ts [d] := by
  refine ⟨h.exists_cons, fun n hn tail => ?_⟩
  obtain ⟨n, rfl⟩ := Nat.exists_eq_add_of_le' (Nat.one_le_of_lt hn)
  rw [Draft.items, h n (by omega)]

theorem YieldsItems.cons {ts us : List Token} {d : Draft} {ds : List Draft} (h : Yields ts d)
    (hrest : YieldsItems us ds) : YieldsItems (ts ++ .comma :: us) (d :: ds) := by
  refine ⟨?_, fun n hn tail => ?_⟩
  · obtain ⟨t, more, rfl, ht⟩ := h.exists_cons
    exact ⟨t, more ++ .comma :: us, by simp, ht⟩
  · obtain ⟨n, rfl⟩ := Nat.exists_eq_add_of_le' (Nat.one_le_of_lt hn)
    simp only [List.length_append, List.length_cons] at hn
    rw [List.append_assoc, List.cons_append, Draft.items, h n (by omega)]
    dsimp only
    rw [hrest.2 n (by omega)]

theorem Yields.array {ts : List Token} {ds : List Draft} (h : YieldsItems ts ds) :
    Yields (.openArray :: (ts ++ [.closeArray])) (.array ds (.ok ())) := by
  obtain ⟨⟨t, us, rfl, ht⟩, hitems⟩ := h
  intro n hn tail
  obtain ⟨n, rfl⟩ := Nat.exists_eq_add_of_le' (Nat.one_le_of_lt hn)
  simp only [List.length_cons, List.length_append, List.length_nil] at hn
  have hclosed := hitems n (by rw [List.length_cons]; omega) tail
  simp only [List.cons_append, List.append_assoc, List.nil_append] at hclosed ⊢
  rw [Draft.value, hclosed]
  rintro _ ⟨⟩
  exact ht rfl

theorem yields_emptyArray : Yields [.openArray, .closeArray] (.array [] (.ok ())) := by
  intro n hn tail
  obtain ⟨n, rfl⟩ := Nat.exists_eq_add_of_le' (Nat.one_le_of_lt hn)
  rfl

/-! ## Objects -/

/-- Some tokens are read as the members of an object, which end where it is closed. -/
def YieldsMembers (ts : List Token) (ms : List (Lexeme × Draft)) : Prop :=
  (∃ key us, ts = .string key :: us) ∧ ∀ n, 2 * ts.length < n → ∀ tail,
    Draft.members n (ts ++ .closeObject :: tail) = (ms, .ok (), tail)

theorem YieldsMembers.last {ts : List Token} {d : Draft} (key : Lexeme) (h : Yields ts d) :
    YieldsMembers (.string key :: .colon :: ts) [(key, d)] := by
  refine ⟨⟨key, _, rfl⟩, fun n hn tail => ?_⟩
  obtain ⟨n, rfl⟩ := Nat.exists_eq_add_of_le' (Nat.one_le_of_lt hn)
  simp only [List.length_cons] at hn
  simp only [List.cons_append, Draft.members]
  rw [h n (by omega)]

theorem YieldsMembers.cons {ts us : List Token} {d : Draft} {ms : List (Lexeme × Draft)}
    (key : Lexeme) (h : Yields ts d) (hrest : YieldsMembers us ms) :
    YieldsMembers (.string key :: .colon :: (ts ++ .comma :: us)) ((key, d) :: ms) := by
  refine ⟨⟨key, _, rfl⟩, fun n hn tail => ?_⟩
  obtain ⟨n, rfl⟩ := Nat.exists_eq_add_of_le' (Nat.one_le_of_lt hn)
  simp only [List.length_cons, List.length_append] at hn
  simp only [List.cons_append, List.append_assoc, Draft.members]
  rw [h n (by omega)]
  dsimp only
  rw [hrest.2 n (by omega)]

theorem Yields.object {ts : List Token} {ms : List (Lexeme × Draft)} (h : YieldsMembers ts ms) :
    Yields (.openObject :: (ts ++ [.closeObject])) (.object ms (.ok ())) := by
  obtain ⟨⟨key, us, rfl⟩, hmembers⟩ := h
  intro n hn tail
  obtain ⟨n, rfl⟩ := Nat.exists_eq_add_of_le' (Nat.one_le_of_lt hn)
  simp only [List.length_cons, List.length_append, List.length_nil] at hn
  have hclosed := hmembers n (by rw [List.length_cons]; omega) tail
  simp only [List.cons_append, List.append_assoc, List.nil_append] at hclosed ⊢
  rw [Draft.value, hclosed]
  nofun

theorem yields_emptyObject : Yields [.openObject, .closeObject] (.object [] (.ok ())) := by
  intro n hn tail
  obtain ⟨n, rfl⟩ := Nat.exists_eq_add_of_le' (Nat.one_le_of_lt hn)
  rfl

/-! ## What is read -/

/-- A token that breaks no rule. -/
def Token.IsSound : Token → Prop
  | .string l => l.skim = .ok ()
  | .brokenNumber _ | .broken _ => False
  | _ => True

/-- What the search for a value uses up yields the value, if that has no fault. -/
def ValueUses (n : ℕ) : Prop :=
  ∀ ts d rest, Draft.value n ts = (d, rest) → d.skip = .ok () →
    ∃ used, ts = used ++ rest ∧ (∀ t ∈ used, t.IsSound) ∧ Yields used d

def ItemsUses (n : ℕ) : Prop :=
  ∀ ts ds rest, Draft.items n ts = (ds, .ok (), rest) → Draft.skipItems ds = .ok () →
    ∃ used, ts = used ++ .closeArray :: rest ∧ (∀ t ∈ used, t.IsSound) ∧ YieldsItems used ds

def MembersUses (n : ℕ) : Prop :=
  ∀ ts ms rest, Draft.members n ts = (ms, .ok (), rest) → Draft.skipMembers ms = .ok () →
    ∃ used, ts = used ++ .closeObject :: rest ∧ (∀ t ∈ used, t.IsSound) ∧ YieldsMembers used ms

theorem bind_ok_unit {ε : Type} {x y : Except ε Unit} (h : (x >>= fun _ => y) = .ok ()) :
    x = .ok () ∧ y = .ok () := by
  obtain ⟨_, hx, hy⟩ := bind_eq_ok_iff.1 h
  exact ⟨hx, hy⟩

variable {n : ℕ}

theorem valueUses_succ (hitems : ItemsUses n) (hmembers : MembersUses n) : ValueUses (n + 1) := by
  intro ts d rest h hskip
  unfold Draft.value at h
  split at h
  · cases h
    exact ⟨[.null], rfl, by simp [Token.IsSound], .of_token fun _ _ => rfl⟩
  · cases h
    exact ⟨[.bool _], rfl, by simp [Token.IsSound], .of_token fun _ _ => rfl⟩
  · cases h
    exact ⟨[.number _], rfl, by simp [Token.IsSound], .of_token fun _ _ => rfl⟩
  · cases h
    rw [Draft.skip] at hskip
    exact ⟨[.string _], rfl, by simpa [Token.IsSound] using hskip, .of_token fun _ _ => rfl⟩
  · cases h
    exact ⟨[.openArray, .closeArray], rfl, by simp [Token.IsSound], yields_emptyArray⟩
  · next ts _ =>
    rcases hread : Draft.items n ts with ⟨ds, ending, more⟩
    rw [hread] at h
    cases h
    obtain ⟨hds, rfl⟩ := bind_ok_unit hskip
    obtain ⟨used, rfl, hsound, hused⟩ := hitems _ _ _ hread hds
    refine ⟨.openArray :: (used ++ [.closeArray]), by simp, ?_, .array hused⟩
    exact List.forall_mem_cons.2 ⟨trivial, List.forall_mem_append.2 ⟨hsound,
      List.forall_mem_singleton.2 trivial⟩⟩
  · cases h
    exact ⟨[.openObject, .closeObject], rfl, by simp [Token.IsSound], yields_emptyObject⟩
  · next ts _ =>
    rcases hread : Draft.members n ts with ⟨ms, ending, more⟩
    rw [hread] at h
    cases h
    obtain ⟨hms, rfl⟩ := bind_ok_unit hskip
    obtain ⟨used, rfl, hsound, hused⟩ := hmembers _ _ _ hread hms
    refine ⟨.openObject :: (used ++ [.closeObject]), by simp, ?_, .object hused⟩
    exact List.forall_mem_cons.2 ⟨trivial, List.forall_mem_append.2 ⟨hsound,
      List.forall_mem_singleton.2 trivial⟩⟩
  all_goals
    cases h
    cases hskip

theorem itemsUses_succ (hvalue : ValueUses n) (hitems : ItemsUses n) : ItemsUses (n + 1) := by
  intro ts ds rest h hskip
  rw [Draft.items] at h
  rcases hread : Draft.value n ts with ⟨d, more⟩
  rw [hread] at h
  dsimp only at h
  split at h
  · next more =>
    rcases hrest : Draft.items n more with ⟨ds', ending, left⟩
    rw [hrest] at h
    cases h
    obtain ⟨hd, hds⟩ := bind_ok_unit hskip
    obtain ⟨used, rfl, hsound, hused⟩ := hvalue _ _ _ hread hd
    obtain ⟨used', rfl, hsound', hused'⟩ := hitems _ _ _ hrest hds
    refine ⟨used ++ .comma :: used', by simp, ?_, .cons hused hused'⟩
    exact List.forall_mem_append.2 ⟨hsound, List.forall_mem_cons.2 ⟨trivial, hsound'⟩⟩
  · cases h
    obtain ⟨hd, -⟩ := bind_ok_unit hskip
    obtain ⟨used, rfl, hsound, hused⟩ := hvalue _ _ _ hread hd
    exact ⟨used, rfl, hsound, .last hused⟩
  · cases h

theorem membersUses_succ (hvalue : ValueUses n) (hmembers : MembersUses n) :
    MembersUses (n + 1) := by
  intro ts ms rest h hskip
  unfold Draft.members at h
  split at h
  · next key ts =>
    rcases hread : Draft.value n ts with ⟨d, more⟩
    rw [hread] at h
    dsimp only at h
    split at h
    · next more =>
      rcases hrest : Draft.members n more with ⟨ms', ending, left⟩
      rw [hrest] at h
      cases h
      obtain ⟨hkey, hskip⟩ := bind_ok_unit hskip
      obtain ⟨hd, hms⟩ := bind_ok_unit hskip
      obtain ⟨used, rfl, hsound, hused⟩ := hvalue _ _ _ hread hd
      obtain ⟨used', rfl, hsound', hused'⟩ := hmembers _ _ _ hrest hms
      refine ⟨.string key :: .colon :: (used ++ .comma :: used'), by simp, ?_,
        .cons key hused hused'⟩
      exact List.forall_mem_cons.2 ⟨hkey, List.forall_mem_cons.2 ⟨trivial,
        List.forall_mem_append.2 ⟨hsound, List.forall_mem_cons.2 ⟨trivial, hsound'⟩⟩⟩⟩
    · cases h
      obtain ⟨hkey, hskip⟩ := bind_ok_unit hskip
      obtain ⟨hd, -⟩ := bind_ok_unit hskip
      obtain ⟨used, rfl, hsound, hused⟩ := hvalue _ _ _ hread hd
      refine ⟨.string key :: .colon :: used, by simp, ?_, .last key hused⟩
      exact List.forall_mem_cons.2 ⟨hkey, List.forall_mem_cons.2 ⟨trivial, hsound⟩⟩
    · cases h
  · cases h
  · cases h

theorem uses (n : ℕ) : ValueUses n ∧ ItemsUses n ∧ MembersUses n := by
  induction n with
  | zero =>
    refine ⟨?_, ?_, ?_⟩
    · intro ts d rest h hskip
      cases h
      cases hskip
    · intro ts ds rest h
      cases h
    · intro ts ms rest h
      cases h
  | succ n ih =>
    obtain ⟨hvalue, hitems, hmembers⟩ := ih
    exact ⟨valueUses_succ hitems hmembers, itemsUses_succ hvalue hitems,
      membersUses_succ hvalue hmembers⟩

/-- **What is read is yielded** by the tokens that were used up. -/
theorem yields_of_value {ts rest : List Token} {d : Draft} (h : Draft.value n ts = (d, rest))
    (hskip : d.skip = .ok ()) :
    ∃ used, ts = used ++ rest ∧ (∀ t ∈ used, t.IsSound) ∧ Yields used d :=
  (uses n).1 ts d rest h hskip

end GeoPartition.Json
