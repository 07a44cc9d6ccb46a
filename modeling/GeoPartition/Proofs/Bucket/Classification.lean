import GeoPartition.Proofs.Bucket.Naming

/-!
# Which bucket two codes have

**Theorem (`ofCodes_characterized`).** The bucket of two codes is the one that these rules give
(`Classified`), and no other.

* A code without symbols has no bucket.
* First symbols that are equal, in any case, give the cell of what the small forms of the codes
  share. It has a symbol, and no longer beginning is shared.
* Other first symbols give a region, if the one of the bottom left corner is in the alphabet: the
  globe for its two end cells, or the row of the table for the two quadrants, or the quadrant of the
  bottom left corner if there is no row.
* Everything else is unclassified.

The rules say what the longest shared beginning is, and which quadrants span which region, without
the functions that find them; each rule is settled by one lemma about one function.
-/

namespace GeoPartition

/-! ## Shared beginnings -/

/-- A beginning of two lists that begins with every beginning of both. -/
structure IsLongestShared {α : Type} (u l m : List α) : Prop where
  left : u <+: l
  right : u <+: m
  longest : ∀ v, v <+: l → v <+: m → v <+: u

theorem IsLongestShared.eq {α : Type} {u v l m : List α} (hu : IsLongestShared u l m)
    (hv : IsLongestShared v l m) : u = v :=
  (hv.longest u hu.left hu.right).eq_of_length_le (hu.longest v hv.left hv.right).length_le

theorem IsLongestShared.symm {α : Type} {u l m : List α} (h : IsLongestShared u l m) :
    IsLongestShared u m l :=
  ⟨h.right, h.left, fun v hm hl => h.longest v hl hm⟩

theorem isLongestShared_self {α : Type} (l : List α) : IsLongestShared l l l :=
  ⟨List.prefix_rfl, List.prefix_rfl, fun _ h _ => h⟩

section commonPrefix

variable {α : Type} [DecidableEq α]

theorem commonPrefix_longest {v l m : List α} (hl : v <+: l) (hm : v <+: m) :
    v <+: commonPrefix l m := by
  induction v generalizing l m with
  | nil => exact List.nil_prefix
  | cons a v ih =>
    obtain ⟨l', rfl, hl'⟩ := List.cons_prefix_iff.1 hl
    obtain ⟨m', rfl, hm'⟩ := List.cons_prefix_iff.1 hm
    rw [commonPrefix, if_pos rfl]
    exact List.cons_prefix_cons.2 ⟨rfl, ih hl' hm'⟩

theorem isLongestShared_commonPrefix (l m : List α) : IsLongestShared (commonPrefix l m) l m :=
  ⟨commonPrefix_prefix_left l m, commonPrefix_prefix_right l m, fun _ => commonPrefix_longest⟩

end commonPrefix

/-! ## The quadrant of a symbol -/

namespace Quadrant

theorem contains_toLower (q : Quadrant) (c : Char) : q.contains c.toLower = q.contains c := by
  rw [contains, contains, Char.toLower_toLower_eq_toLower]

theorem ofSymbol?_toLower (c : Char) : ofSymbol? c.toLower = ofSymbol? c := by
  simp only [ofSymbol?, contains_toLower]

theorem contains_iff {q : Quadrant} {c : Char} :
    q.contains c = true ↔ c.toLower ∈ q.symbols.toList := by
  simp [contains]

set_option maxRecDepth 4000 in
/-- The table of quadrants lists symbols of the alphabet, each of them once. -/
theorem ofSymbol?_of_mem_symbols {q : Quadrant} {d : Char} (h : d ∈ q.symbols.toList) :
    ofSymbol? d = some q ∧ d ∈ Geohash.alphabet := by
  have hall :
      q.symbols.toList.all (fun d => ofSymbol? d = some q ∧ d ∈ Geohash.alphabet) = true := by
    cases q <;> decide
  exact of_decide_eq_true (List.all_eq_true.1 hall d h)

theorem ofSymbol?_eq_some_iff {c : Char} {q : Quadrant} :
    ofSymbol? c = some q ↔ q.contains c = true := by
  constructor
  · intro h
    exact List.find?_some (p := fun q : Quadrant => q.contains c) h
  · intro h
    rw [← ofSymbol?_toLower]
    exact (ofSymbol?_of_mem_symbols (contains_iff.1 h)).1

/-- No symbol is in two quadrants. -/
theorem eq_of_contains {q q' : Quadrant} {c : Char} (h : q.contains c = true)
    (h' : q'.contains c = true) : q = q' :=
  Option.some.inj ((ofSymbol?_eq_some_iff.2 h).symm.trans (ofSymbol?_eq_some_iff.2 h'))

/-- The quadrants hold the alphabet and nothing else. -/
theorem exists_contains_iff {c : Char} :
    (∃ q : Quadrant, q.contains c = true) ↔ c.toLower ∈ Geohash.alphabet := by
  constructor
  · rintro ⟨q, hq⟩
    exact (ofSymbol?_of_mem_symbols (contains_iff.1 hq)).2
  · intro h
    obtain ⟨⟨n, hn⟩, hc⟩ := List.mem_iff_get.1 h
    have hsymbol : Geohash.symbol n = c.toLower := by
      rw [← hc, Geohash.symbol]
      simp [Nat.mod_eq_of_lt (Geohash.length_alphabet ▸ hn)]
    have hq := ofSymbol?_symbol n
    rw [hsymbol, ofSymbol?_toLower] at hq
    exact ⟨_, ofSymbol?_eq_some_iff.1 hq⟩

end Quadrant

/-! ## The region between two symbols -/

namespace Cover

/-- The quadrants of a bottom left and a top right corner that span a half of the globe or all of
it. -/
def rows : List (Quadrant × Quadrant × Region) :=
  [(.southWest, .northEast, .all), (.southEast, .northEast, .east),
    (.southWest, .northWest, .west), (.northWest, .northEast, .north),
    (.southWest, .southEast, .south)]

theorem regionOfQuadrants_eq_iff {q : Quadrant} {q' : Option Quadrant} {r : Region} :
    regionOfQuadrants q q' = r ↔
      (∃ p, q' = some p ∧ (q, p, r) ∈ rows) ∨
        (∀ p, q' = some p → ∀ r', (q, p, r') ∉ rows) ∧ r = .quadrant q := by
  cases q' with
  | none => simp [regionOfQuadrants, eq_comm]
  | some p => cases q <;> cases p <;> simp [regionOfQuadrants, rows, eq_comm]

/-- Are these the cells at the south west and the north east end of the globe? -/
def IsGlobe (a b : Char) : Prop := a.toLower = '0' ∧ b.toLower = 'z'

/-- The region that two symbols span, in any case. -/
inductive Spans (a b : Char) : Region → Prop
  | globe (h : IsGlobe a b) : Spans a b .global
  | row {q q' : Quadrant} {r : Region} (h : ¬IsGlobe a b) (ha : q.contains a = true)
      (hb : q'.contains b = true) (hrow : (q, q', r) ∈ rows) : Spans a b r
  | own {q : Quadrant} (h : ¬IsGlobe a b) (ha : q.contains a = true)
      (hno : ∀ q' : Quadrant, q'.contains b = true → ∀ r, (q, q', r) ∉ rows) :
      Spans a b (.quadrant q)

/-- **Regions.** Different symbols are covered by the region that they span. -/
theorem ofCorners_eq_region_iff {a b : Char} (hne : a.toLower ≠ b.toLower) {r : Region} :
    ofCorners a b = region r ↔ Spans a b r := by
  simp only [ofCorners, if_neg hne]
  by_cases h : a.toLower = '0' ∧ b.toLower = 'z'
  · rw [if_pos h, region.injEq]
    constructor
    · rintro rfl
      exact .globe h
    · rintro (_ | ⟨hno, -, -, -⟩ | ⟨hno, -, -⟩)
      · rfl
      · exact absurd h hno
      · exact absurd h hno
  · rw [if_neg h]
    have hb (q' : Quadrant) : Quadrant.ofSymbol? b.toLower = some q' ↔ q'.contains b = true := by
      rw [Quadrant.ofSymbol?_eq_some_iff, Quadrant.contains_toLower]
    cases hq : Quadrant.ofSymbol? a.toLower with
    | none =>
      have hno (q : Quadrant) : ¬q.contains a = true := by
        rw [← Quadrant.contains_toLower, ← Quadrant.ofSymbol?_eq_some_iff, hq]
        simp
      refine iff_of_false (by simp) ?_
      rintro (hglobe | ⟨-, ha, -, -⟩ | ⟨-, ha, -⟩)
      · exact h hglobe
      · exact hno _ ha
      · exact hno _ ha
    | some q =>
      have ha : q.contains a = true := by
        rw [← Quadrant.contains_toLower, ← Quadrant.ofSymbol?_eq_some_iff, hq]
      dsimp only
      rw [region.injEq, regionOfQuadrants_eq_iff]
      constructor
      · rintro (⟨q', hq', hrow⟩ | ⟨hno, rfl⟩)
        · exact .row h ha ((hb q').1 hq') hrow
        · exact .own h ha fun q' hq' => hno q' ((hb q').2 hq')
      · rintro (hglobe | ⟨-, hqa, hqb, hrow⟩ | ⟨-, hqa, hno⟩)
        · exact absurd hglobe h
        · obtain rfl := Quadrant.eq_of_contains ha hqa
          exact .inl ⟨_, (hb _).2 hqb, hrow⟩
        · obtain rfl := Quadrant.eq_of_contains ha hqa
          exact .inr ⟨fun q' hq' => hno q' ((hb q').1 hq'), rfl⟩

/-- Symbols that are equal in any case are covered by their cell. -/
theorem ofCorners_of_toLower_eq {a b : Char} (h : a.toLower = b.toLower) :
    ofCorners a b = cell a.toLower := by
  simp only [ofCorners, if_pos h]

/-- A region is spanned exactly if the symbol of the bottom left corner is in the alphabet. -/
theorem exists_spans_iff {a b : Char} : (∃ r, Spans a b r) ↔ a.toLower ∈ Geohash.alphabet := by
  constructor
  · rintro ⟨r, hr⟩
    cases hr with
    | globe h =>
      rw [h.1]
      decide
    | row _ ha _ _ => exact Quadrant.exists_contains_iff.1 ⟨_, ha⟩
    | own _ ha _ => exact Quadrant.exists_contains_iff.1 ⟨_, ha⟩
  · intro hmem
    obtain ⟨q, hq⟩ := Quadrant.exists_contains_iff.2 hmem
    by_cases hglobe : IsGlobe a b
    · exact ⟨_, .globe hglobe⟩
    · by_cases hrow : ∃ q' : Quadrant, q'.contains b = true ∧ ∃ r, (q, q', r) ∈ rows
      · obtain ⟨q', hq', r, hr⟩ := hrow
        exact ⟨r, .row hglobe hq hq' hr⟩
      · exact ⟨_, .own hglobe hq fun q' hq' r hr => hrow ⟨q', hq', r, hr⟩⟩

theorem ofCorners_eq_unclassified_iff {a b : Char} (hne : a.toLower ≠ b.toLower) :
    ofCorners a b = unclassified ↔ a.toLower ∉ Geohash.alphabet := by
  have hspans (r : Region) := ofCorners_eq_region_iff hne (r := r)
  rw [← exists_spans_iff (b := b)]
  cases hcover : ofCorners a b with
  | cell c => exact absurd (toLower_eq_of_ofCorners hcover) hne
  | region r => exact iff_of_false nofun (not_not.2 ⟨r, (hspans r).1 hcover⟩)
  | unclassified =>
    refine iff_of_true rfl ?_
    rintro ⟨r, hr⟩
    cases hcover.symm.trans ((hspans r).2 hr)

end Cover

/-! ## The bucket of two codes -/

namespace Bucket

open Geohash (alphabet)

/-- The bucket that two codes are to have. -/
inductive Classified (s t : Code) : Bucket → Prop
  | empty (h : s = [] ∨ t = []) : Classified s t unclassified
  | shared {a b : Char} {u : Code} (ha : s.head? = some a) (hb : t.head? = some b)
      (heq : a.toLower = b.toLower) (hne : u ≠ [])
      (hu : IsLongestShared u (Text.lowercase s) (Text.lowercase t)) : Classified s t (cell u)
  | spanning {a b : Char} {r : Region} (ha : s.head? = some a) (hb : t.head? = some b)
      (hne : a.toLower ≠ b.toLower) (hmem : a.toLower ∈ alphabet) (hr : Cover.Spans a b r) :
      Classified s t (region r)
  | outside {a b : Char} (ha : s.head? = some a) (hb : t.head? = some b)
      (hne : a.toLower ≠ b.toLower) (hmem : a.toLower ∉ alphabet) : Classified s t unclassified

theorem ofCodes_of_eq_nil {s t : Code} (h : s = [] ∨ t = []) : ofCodes s t = unclassified := by
  rcases h with rfl | rfl
  · rfl
  · cases s <;> rfl

section cons

variable {a b : Char} {s t : Code}

theorem ofCodes_of_toLower_eq (h : a.toLower = b.toLower) :
    ofCodes (a :: s) (b :: t) = cell (sharedCode (a :: s) (b :: t)) := by
  simp only [ofCodes, Cover.ofCorners_of_toLower_eq h]

theorem ofCodes_eq_region_iff (h : a.toLower ≠ b.toLower) {r : Region} :
    ofCodes (a :: s) (b :: t) = region r ↔ Cover.Spans a b r := by
  rw [← Cover.ofCorners_eq_region_iff h, ofCodes]
  cases Cover.ofCorners a b <;> simp

theorem ofCodes_eq_unclassified_iff (h : a.toLower ≠ b.toLower) :
    ofCodes (a :: s) (b :: t) = unclassified ↔ a.toLower ∉ alphabet := by
  rw [← Cover.ofCorners_eq_unclassified_iff h, ofCodes]
  cases Cover.ofCorners a b <;> simp

end cons

/-- Two codes have a bucket by the rules. -/
theorem classified_ofCodes (s t : Code) : Classified s t (ofCodes s t) := by
  cases s with
  | nil => exact .empty (.inl rfl)
  | cons a s =>
    cases t with
    | nil => exact .empty (.inr rfl)
    | cons b t =>
      by_cases heq : a.toLower = b.toLower
      · have hne := ofCodes_ne_cell_nil (a :: s) (b :: t)
        rw [ofCodes_of_toLower_eq heq] at hne ⊢
        exact .shared rfl rfl heq (fun h => hne (congrArg cell h))
          (isLongestShared_commonPrefix _ _)
      · by_cases hmem : a.toLower ∈ alphabet
        · obtain ⟨r, hr⟩ := Cover.exists_spans_iff.2 hmem
          rw [(ofCodes_eq_region_iff heq).2 hr]
          exact .spanning rfl rfl heq hmem hr
        · rw [(ofCodes_eq_unclassified_iff heq).2 hmem]
          exact .outside rfl rfl heq hmem

/-- **The rules decide.** No other bucket follows from them. -/
theorem ofCodes_eq_iff_classified {s t : Code} {b : Bucket} :
    ofCodes s t = b ↔ Classified s t b := by
  constructor
  · rintro rfl
    exact classified_ofCodes s t
  · intro h
    cases h with
    | empty h => exact ofCodes_of_eq_nil h
    | shared ha hb heq hne hu =>
      obtain ⟨s, rfl⟩ := List.head?_eq_some_iff.1 ha
      obtain ⟨t, rfl⟩ := List.head?_eq_some_iff.1 hb
      rw [ofCodes_of_toLower_eq heq, hu.eq (isLongestShared_commonPrefix _ _), sharedCode]
    | spanning ha hb hne hmem hr =>
      obtain ⟨s, rfl⟩ := List.head?_eq_some_iff.1 ha
      obtain ⟨t, rfl⟩ := List.head?_eq_some_iff.1 hb
      exact (ofCodes_eq_region_iff hne).2 hr
    | outside ha hb hne hmem =>
      obtain ⟨s, rfl⟩ := List.head?_eq_some_iff.1 ha
      obtain ⟨t, rfl⟩ := List.head?_eq_some_iff.1 hb
      exact (ofCodes_eq_unclassified_iff hne).2 hmem

/-! ## Cells -/

theorem length_segments (b : Bucket) : b.segments.length = b.depth := by
  cases b <;> rfl

/-- The rule for cells does not tell one corner from the other. -/
theorem ofCodes_swap {s t u : Code} (h : ofCodes s t = cell u) : ofCodes t s = cell u := by
  cases ofCodes_eq_iff_classified.1 h with
  | shared ha hb heq hne hu =>
    exact ofCodes_eq_iff_classified.2 (.shared hb ha heq.symm hne hu.symm)

/-- The bucket of one code is the cell of all of it. -/
theorem ofCodes_self {s : Code} (h : s ≠ []) : ofCodes s s = cell (Text.lowercase s) := by
  obtain ⟨a, s, rfl⟩ := List.exists_cons_of_ne_nil h
  exact ofCodes_eq_iff_classified.2 (.shared rfl rfl rfl (Text.lowercase_cons_ne_nil a s)
    (isLongestShared_self _))

/-- The path of a cell is its segments with a separator between them. -/
theorem path_cell (u : Code) :
    (cell u).path = (String.singleton separator).intercalate (u.map String.singleton) := by
  rw [← String.toList_inj, String.toList_intercalate, path, String.toList_ofList,
    intersperse_eq_intercalate, List.map_map]
  simp [Function.comp_def]

theorem length_path_cell {u : Code} (h : u ≠ []) : (cell u).path.length + 1 = 2 * u.length := by
  have hpos := List.length_pos_of_ne_nil h
  rw [path, String.length_ofList, List.length_intersperse]
  omega

/-- **The bucket of two codes** is the one that the rules give. A cell is the same for the corners
exchanged, and for one code it has all of its symbols. The depth of a bucket is the number of its
segments; the path of a cell is its segments with separators between them. -/
theorem ofCodes_characterized (s t : Code) :
    (∀ b, ofCodes s t = b ↔ Classified s t b) ∧
    (∀ u, ofCodes s t = cell u ↔ ofCodes t s = cell u) ∧
    (s ≠ [] → ofCodes s s = cell (Text.lowercase s)) ∧
    (ofCodes s t).depth = (ofCodes s t).segments.length ∧
    ∀ u, ofCodes s t = cell u →
      (ofCodes s t).path =
        (String.singleton separator).intercalate ((ofCodes s t).segments.map String.singleton) ∧
      (ofCodes s t).path.length + 1 = 2 * (ofCodes s t).depth := by
  refine ⟨fun b => ofCodes_eq_iff_classified, fun u => ⟨ofCodes_swap, ofCodes_swap⟩, ofCodes_self,
    (length_segments _).symm, fun u hu => ?_⟩
  have hne : u ≠ [] := by
    rintro rfl
    exact ofCodes_ne_cell_nil s t hu
  rw [hu]
  exact ⟨path_cell u, length_path_cell hne⟩

/-- The codes share one capital, whose small form has two characters; a symbol outside the alphabet
at the top right corner leaves the quadrant of the other one. -/
theorem ofCodes_characterized_dottedCapital :
    (Classified ['İ', 'x'] ['İ', 'Y'] (cell ['i', '\u0307']) ∧
      ofCodes ['İ', 'Y'] ['İ', 'x'] = cell ['i', '\u0307'] ∧
      (ofCodes ['İ', 'x'] ['İ', 'Y']).path.length + 1 = 2 * 2) ∧
    Classified ['U'] ['a'] (region (.quadrant .northEast)) ∧ ofCodes ['U'] ['U'] = cell ['u'] := by
  have hcell : ofCodes ['İ', 'x'] ['İ', 'Y'] = cell ['i', '\u0307'] := by decide
  obtain ⟨hrules, hswap, -, -, hpath⟩ := ofCodes_characterized ['İ', 'x'] ['İ', 'Y']
  obtain ⟨hrules', -, -⟩ := ofCodes_characterized ['U'] ['a']
  obtain ⟨-, -, hself, -⟩ := ofCodes_characterized ['U'] ['U']
  refine ⟨⟨(hrules _).1 hcell, (hswap _).1 hcell, ?_⟩, (hrules' _).1 (by decide), ?_⟩
  · rw [(hpath _ hcell).2, hcell]
    rfl
  · exact (hself (by decide)).trans (by decide)

end Bucket

end GeoPartition
