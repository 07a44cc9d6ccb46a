import GeoPartition.Proofs.Toml.Keys
import GeoPartition.Proofs.Toml.Scalar
import GeoPartition.Proofs.Toml.Table

/-!
# The values of TOML

A value is a single one, an array or an inline table. The items of an array may stand on lines of
their own with comments between them, and a comma may follow the last. An inline table stands on one
line; none of its keys leads to another.

**Theorem (`IsValue.spells`).** Every value that nests at most `n` levels is read wherever as many
may be nested, in front of everything that may follow a value.

Each production is read in front of any text, given that its parts are (`AreItems.spells`,
`AreMembers.members?_append`). Reading takes at most two levels of the search for each character, so
twice the length of the text is enough for any of these.
-/

namespace GeoPartition.Toml

variable {n : ℕ}

/-! ## Arrays -/

/-- The items of an array up to its closing bracket; a comma may follow the last. -/
inductive AreItems : List Char → List (List Char) → Prop
  | empty : AreItems [] []
  | last {t g : List Char} (hg : IsGap g) : AreItems (t ++ g) [t]
  | cons {t g g' s : List Char} {ts : List (List Char)} (hg : IsGap g) (hg' : IsGap g')
      (h : AreItems s ts) : AreItems (t ++ (g ++ ',' :: (g' ++ s))) (t :: ts)

/-- An array of some values, which are given by their texts. -/
inductive IsArray : List Char → List (List Char) → Prop
  | mk {g s : List Char} {ts : List (List Char)} (hg : IsGap g) (h : AreItems s ts) :
      IsArray ('[' :: (g ++ (s ++ [']']))) ts

/-- A text is read as the items of an array, which end where it is closed. -/
structure SpellsItems (n : ℕ) (s : List Char) (vs : List Value) : Prop where
  begins : ∀ rest, skipLines false (s ++ ']' :: rest) = s ++ ']' :: rest
  items : ∀ depth fuel rest, n ≤ depth → 2 * s.length < fuel →
    items? fuel depth (s ++ ']' :: rest) = some (vs, rest)

section

variable {depth fuel : ℕ} {s rest : List Char} {v : Value}
  (hs : ∃ c t, s = c :: t ∧ c ∉ [' ', '\t', '#', '\n', '\r', ']'])
  (hv : value? fuel depth (s ++ rest) = some (v, rest))

include hs hv

/-- Behind an item with a comma, more items may follow. -/
theorem items?_comma {r : List Char} (hrest : skipLines false rest = ',' :: r) :
    items? (fuel + 1) depth (s ++ rest) =
      (items? fuel depth (skipLines false r)).map fun q => (v :: q.1, q.2) := by
  obtain ⟨c, t, rfl, hc⟩ := hs
  rw [List.cons_append] at hv ⊢
  rw [items?]
  · simp only [hv, hrest, Option.bind_eq_bind, Option.bind_some]
    cases items? fuel depth (skipLines false r) <;> rfl
  · intro r h
    exact hc (by simp [(List.cons.inj h).1])

theorem items?_close {r : List Char} (hrest : skipLines false rest = ']' :: r) :
    items? (fuel + 1) depth (s ++ rest) = some ([v], r) := by
  obtain ⟨c, t, rfl, hc⟩ := hs
  rw [List.cons_append] at hv ⊢
  rw [items?]
  · simp only [hv, hrest, Option.bind_eq_bind, Option.bind_some]
    rfl
  · intro r h
    exact hc (by simp [(List.cons.inj h).1])

end

theorem AreItems.spells {s : List Char} {ts : List (List Char)} (h : AreItems s ts)
    (hts : ∀ t ∈ ts, ∃ v, Spells n t v) : ∃ vs, SpellsItems n s vs := by
  induction h with
  | empty =>
    refine ⟨[], fun _ => rfl, fun depth fuel rest _ hfuel => ?_⟩
    obtain ⟨fuel, rfl⟩ := Nat.exists_eq_add_of_le' hfuel
    rfl
  | @last t g hg =>
    obtain ⟨v, hv⟩ := hts t List.mem_cons_self
    refine ⟨[v], fun rest => ?_, fun depth fuel rest hdepth hfuel => ?_⟩
    · rw [List.append_assoc]
      exact hv.skipLines_append _
    · obtain ⟨fuel, rfl⟩ := Nat.exists_eq_add_of_le' (Nat.one_le_of_lt hfuel)
      rw [List.length_append] at hfuel
      have hread := hv depth fuel (g ++ ']' :: rest) hdepth (by omega) (ends_gap hg (by simp) rest)
      have hclose : skipLines false (g ++ ']' :: rest) = ']' :: rest := by
        rw [skipLines_append hg]
        rfl
      rw [List.append_assoc]
      exact items?_close hv.exists_cons hread hclose
  | @cons t g g' s ts hg hg' _ ih =>
    obtain ⟨⟨v, hv⟩, hts⟩ := List.forall_mem_cons.1 hts
    obtain ⟨vs, hs⟩ := ih hts
    refine ⟨v :: vs, fun rest => ?_, fun depth fuel rest hdepth hfuel => ?_⟩
    · rw [List.append_assoc]
      exact hv.skipLines_append _
    · obtain ⟨fuel, rfl⟩ := Nat.exists_eq_add_of_le' (Nat.one_le_of_lt hfuel)
      simp only [List.length_append, List.length_cons] at hfuel
      have hread := hv depth fuel (g ++ ',' :: (g' ++ s ++ ']' :: rest)) hdepth (by omega)
        (ends_gap hg (by simp) _)
      have hcomma : skipLines false (g ++ ',' :: (g' ++ s ++ ']' :: rest)) =
          ',' :: (g' ++ s ++ ']' :: rest) := by
        rw [skipLines_append hg]
        rfl
      have hnext : skipLines false (g' ++ s ++ ']' :: rest) = s ++ ']' :: rest := by
        rw [List.append_assoc, skipLines_append hg', hs.begins]
      have hrest := hs.items depth fuel rest hdepth (by omega)
      rw [List.append_assoc, List.append_assoc, List.cons_append,
        items?_comma hv.exists_cons hread hcomma, hnext, hrest, Option.map_some]

/-- **Arrays** are read item by item. -/
theorem IsArray.spells {s : List Char} {ts : List (List Char)} (h : IsArray s ts)
    (hts : ∀ t ∈ ts, ∃ v, Spells n t v) : ∃ vs, Spells (n + 1) s (.array vs) := by
  obtain @⟨g, s, ts, hg, hs⟩ := h
  obtain ⟨vs, hvs⟩ := hs.spells hts
  refine ⟨vs, fun depth fuel rest hdepth hfuel _ => ?_⟩
  obtain ⟨depth, rfl⟩ := Nat.exists_eq_add_of_le' (Nat.one_le_of_lt hdepth)
  simp only [List.length_cons, List.length_append] at hfuel
  obtain ⟨fuel, rfl⟩ := Nat.exists_eq_add_of_le' (Nat.one_le_of_lt hfuel)
  have hitems := hvs.items depth fuel rest (Nat.le_of_succ_le_succ hdepth) (by omega)
  have hbegins : skipLines false (g ++ (s ++ ']' :: rest)) = s ++ ']' :: rest := by
    rw [skipLines_append hg, hvs.begins]
  simp [value?, hbegins, hitems]

/-! ## Inline tables -/

/-- The members of an inline table, one or more. -/
inductive AreMembers : List Char → List (List String × List Char) → Prop
  | last {k b b₁ t b₂ : List Char} {key : List String} (hk : IsKey k key) (hb : IsBlanks b)
      (hb₁ : IsBlanks b₁) (hb₂ : IsBlanks b₂) :
      AreMembers (k ++ (b ++ '=' :: (b₁ ++ (t ++ b₂)))) [(key, t)]
  | cons {k b b₁ t b₂ b₃ s : List Char} {key : List String} {ms : List (List String × List Char)}
      (hk : IsKey k key) (hb : IsBlanks b) (hb₁ : IsBlanks b₁) (hb₂ : IsBlanks b₂)
      (hb₃ : IsBlanks b₃) (h : AreMembers s ms) :
      AreMembers (k ++ (b ++ '=' :: (b₁ ++ (t ++ (b₂ ++ ',' :: (b₃ ++ s)))))) ((key, t) :: ms)

/-- A table of some keys with their values, which are given by their texts. -/
inductive IsInline : List Char → List (List String × List Char) → Prop
  | empty {b : List Char} (hb : IsBlanks b) : IsInline ('\x7b' :: (b ++ ['\x7d'])) []
  | members {b s : List Char} {ms : List (List String × List Char)} (hb : IsBlanks b)
      (h : AreMembers s ms) : IsInline ('\x7b' :: (b ++ (s ++ ['\x7d']))) ms

/-- Keys that can stand in one table: each has as many parts as can be read, and none leads to
another. -/
structure AreKeys (keys : List (List String)) : Prop where
  ne_nil : ∀ key ∈ keys, key ≠ []
  short : ∀ key ∈ keys, key.length ≤ maxDepth
  apart : keys.Pairwise Apart

theorem AreKeys.tail {key : List String} {keys : List (List String)} (h : AreKeys (key :: keys)) :
    AreKeys keys where
  ne_nil := fun k hk => h.ne_nil k (List.mem_cons_of_mem _ hk)
  short := fun k hk => h.short k (List.mem_cons_of_mem _ hk)
  apart := h.apart.of_cons

/-- **One member** is read and put in, with what follows it. -/
theorem members?_member {k b₁ b₂ t : List Char} {key : List String} {v : Value} {es : Entries}
    (hk : IsKey k key) (hkey : key.length ≤ maxDepth) (hb₁ : IsBlanks b₁) (hb₂ : IsBlanks b₂)
    (ht : Spells n t v) (hfree : IsFree key es) :
    ∃ es', (∀ q, Apart key q → IsFree q es → IsFree q es') ∧ ∀ depth fuel b rest r, n ≤ depth →
      2 * t.length ≤ fuel → IsBlanks b → Ends rest →
      (skipBlanks rest = ',' :: r →
        members? (fuel + 1) depth es (b ++ (k ++ (b₁ ++ '=' :: (b₂ ++ (t ++ rest))))) =
          members? fuel depth es' r) ∧
      (skipBlanks rest = '\x7d' :: r →
        members? (fuel + 1) depth es (b ++ (k ++ (b₁ ++ '=' :: (b₂ ++ (t ++ rest))))) =
          some (es', r)) := by
  obtain ⟨path, last, rfl⟩ := (List.eq_nil_or_concat' key).resolve_left hk.ne_nil
  obtain ⟨es', hassign, hothers, -⟩ := hfree.assign v
  refine ⟨es', hothers, fun depth fuel b rest r hdepth hfuel hb hrest => ?_⟩
  have hread := key?_append hk hb hb₁ (d := '=') (by simp) hkey (b₂ ++ (t ++ rest))
  have hbegins := ht.skipBlanks_append rest
  have hvalue := ht depth fuel rest hdepth hfuel hrest
  constructor <;> intro hr <;> rw [members?] <;>
    simp [hread, splitKey_append, char?_cons, skipBlanks_append hb₂, hbegins, hvalue, hassign, hr]

/-- **Members** are read up to the closing bracket. -/
theorem AreMembers.members?_append {s : List Char} {ms : List (List String × List Char)}
    (h : AreMembers s ms) (hkeys : AreKeys (ms.map Prod.fst))
    (hms : ∀ m ∈ ms, ∃ v, Spells n m.2 v) {es : Entries} (hfree : ∀ m ∈ ms, IsFree m.1 es) :
    ∃ es', ∀ depth fuel b rest, n ≤ depth → 2 * s.length < fuel → IsBlanks b →
      members? fuel depth es (b ++ (s ++ '\x7d' :: rest)) = some (es', rest) := by
  induction h generalizing es with
  | @last k b₁ b₂ t b₃ key hk hb₁ hb₂ hb₃ =>
    obtain ⟨v, hv⟩ : ∃ v, Spells n t v := hms _ List.mem_cons_self
    obtain ⟨es', -, hread⟩ := members?_member hk (hkeys.short _ List.mem_cons_self) hb₁ hb₂ hv
      (hfree _ List.mem_cons_self)
    refine ⟨es', fun depth fuel b rest hdepth hfuel hb => ?_⟩
    obtain ⟨fuel, rfl⟩ := Nat.exists_eq_add_of_le' (Nat.one_le_of_lt hfuel)
    simp only [List.length_append, List.length_cons] at hfuel
    have hclose : skipBlanks (b₃ ++ '\x7d' :: rest) = '\x7d' :: rest := by
      rw [skipBlanks_append hb₃]
      rfl
    obtain ⟨-, hlast⟩ := hread depth fuel b (b₃ ++ '\x7d' :: rest) rest hdepth (by omega) hb
      (ends_of_mem hb₃ (by simp [enders]) rest)
    rw [← hlast hclose]
    simp only [List.append_assoc, List.cons_append]
  | @cons k b₁ b₂ t b₃ b₄ s key ms hk hb₁ hb₂ hb₃ hb₄ _ ih =>
    obtain ⟨ht, hms⟩ := List.forall_mem_cons.1 hms
    obtain ⟨v, hv⟩ : ∃ v, Spells n t v := ht
    obtain ⟨hfirst, hfree⟩ := List.forall_mem_cons.1 hfree
    obtain ⟨es', hothers, hread⟩ := members?_member hk (hkeys.short _ List.mem_cons_self) hb₁ hb₂ hv
      hfirst
    have hapart : ∀ m ∈ ms, Apart key m.1 := fun m hm =>
      List.rel_of_pairwise_cons hkeys.apart (List.mem_map_of_mem hm)
    obtain ⟨es'', hrest⟩ := ih hkeys.tail hms fun m hm => hothers _ (hapart m hm) (hfree m hm)
    refine ⟨es'', fun depth fuel b rest hdepth hfuel hb => ?_⟩
    obtain ⟨fuel, rfl⟩ := Nat.exists_eq_add_of_le' (Nat.one_le_of_lt hfuel)
    simp only [List.length_append, List.length_cons] at hfuel
    have hcomma : skipBlanks (b₃ ++ ',' :: (b₄ ++ (s ++ '\x7d' :: rest))) =
        ',' :: (b₄ ++ (s ++ '\x7d' :: rest)) := by
      rw [skipBlanks_append hb₃]
      rfl
    obtain ⟨hmember, -⟩ := hread depth fuel b (b₃ ++ ',' :: (b₄ ++ (s ++ '\x7d' :: rest))) _ hdepth
      (by omega) hb (ends_of_mem hb₃ (by simp [enders]) _)
    rw [← hrest depth fuel b₄ rest hdepth (by omega) hb₄, ← hmember hcomma]
    simp only [List.append_assoc, List.cons_append]

theorem AreMembers.exists_cons {s : List Char} {ms : List (List String × List Char)}
    (h : AreMembers s ms) : ∃ c t, s = c :: t ∧ opensKey c := by
  cases h with
  | last hk _ _ _ | cons hk _ _ _ _ _ =>
    obtain ⟨c, t, rfl, hc⟩ := hk.exists_cons
    exact ⟨c, _, rfl, hc⟩

/-- **Inline tables** are read member by member. -/
theorem IsInline.spells {s : List Char} {ms : List (List String × List Char)} (h : IsInline s ms)
    (hkeys : AreKeys (ms.map Prod.fst)) (hms : ∀ m ∈ ms, ∃ v, Spells n m.2 v) :
    ∃ entries, Spells (n + 1) s (.table entries) := by
  cases h with
  | @empty b hb =>
    refine ⟨[], fun depth fuel rest hdepth hfuel _ => ?_⟩
    obtain ⟨depth, rfl⟩ := Nat.exists_eq_add_of_le' (Nat.one_le_of_lt hdepth)
    simp only [List.length_cons] at hfuel
    obtain ⟨fuel, rfl⟩ := Nat.exists_eq_add_of_le' (Nat.one_le_of_lt hfuel)
    have hclose : skipBlanks (b ++ '\x7d' :: rest) = '\x7d' :: rest := by
      rw [skipBlanks_append hb]
      rfl
    simp [value?, hclose]
  | @members b s ms hb hs =>
    obtain ⟨es, hread⟩ := hs.members?_append hkeys hms fun m hm =>
      isFree_nil (hkeys.ne_nil _ (List.mem_map_of_mem hm))
    refine ⟨Node.toValues es, fun depth fuel rest hdepth hfuel _ => ?_⟩
    obtain ⟨depth, rfl⟩ := Nat.exists_eq_add_of_le' (Nat.one_le_of_lt hdepth)
    simp only [List.length_cons, List.length_append] at hfuel
    obtain ⟨fuel, rfl⟩ := Nat.exists_eq_add_of_le' (Nat.one_le_of_lt hfuel)
    have hmembers := hread depth fuel [] rest (Nat.le_of_succ_le_succ hdepth) (by omega)
      isBlanks_nil
    obtain ⟨c, t, rfl, hc⟩ := hs.exists_cons
    have hbegins : skipBlanks (b ++ (c :: t ++ '\x7d' :: rest)) = c :: (t ++ '\x7d' :: rest) := by
      rw [skipBlanks_append hb]
      exact skipBlanks_cons (isBlank_of_opensKey hc) _
    have hne : c ≠ '\x7d' := Text.ne_of_class hc (by decide)
    rw [List.nil_append, List.cons_append] at hmembers
    simp only [List.cons_append, List.append_assoc, List.nil_append] at hbegins ⊢
    simp [value?, hbegins, hne, hmembers]

/-! ## Values -/

/-- The values that nest at most `n` arrays and inline tables. -/
inductive IsValue : ℕ → List Char → Prop
  | scalar {n : ℕ} {s : List Char} (h : IsScalar s) : IsValue n s
  | array {n : ℕ} {s : List Char} {ts : List (List Char)} (h : IsArray s ts)
      (hts : ∀ t ∈ ts, IsValue n t) : IsValue (n + 1) s
  | table {n : ℕ} {s : List Char} {ms : List (List String × List Char)} (h : IsInline s ms)
      (hkeys : AreKeys (ms.map Prod.fst)) (hms : ∀ m ∈ ms, IsValue n m.2) : IsValue (n + 1) s

/-- **Values are read** wherever they may nest as deep as they do. -/
theorem IsValue.spells {s : List Char} (h : IsValue n s) : ∃ v, Spells n s v := by
  induction h with
  | @scalar n s h =>
    obtain ⟨v, hv⟩ := h.spells
    exact ⟨v, hv.mono (Nat.zero_le n)⟩
  | array h _ ih =>
    obtain ⟨vs, hvs⟩ := h.spells ih
    exact ⟨_, hvs⟩
  | table h hkeys _ ih =>
    obtain ⟨entries, hentries⟩ := h.spells hkeys ih
    exact ⟨_, hentries⟩

end GeoPartition.Toml
