import GeoPartition.Proofs.Keyed
import GeoPartition.Toml.Table

/-!
# Dotted keys in a table

Giving a value to a dotted key makes the tables on its way. It can be done as long as nothing stands
at the key and only tables of other dotted keys stand on the way (`IsFree`).

**Theorem (`IsFree.assign`).** A free key can be given a value, after which every other free key is
still free, if neither of the two keys leads to the other. So keys of which none leads to another
can be given their values in any order.

Only the entry with the first part of the key is touched (`Frame`).
-/

namespace GeoPartition.Toml

/-- Neither of two keys leads to the other. -/
def Apart (p q : List String) : Prop := ¬ p <+: q ∧ ¬ q <+: p

instance (p q : List String) : Decidable (Apart p q) := inferInstanceAs (Decidable (_ ∧ _))

theorem Apart.ne_nil {p q : List String} (h : Apart p q) : q ≠ [] := by
  rintro rfl
  exact h.2 List.nil_prefix

theorem apart_cons {k : String} {p q : List String} : Apart (k :: p) (k :: q) ↔ Apart p q := by
  simp [Apart, List.cons_prefix_cons]

theorem apart_singleton {j k : String} (h : j ≠ k) : Apart [j] [k] := by
  simp [Apart, List.cons_prefix_cons, h, h.symm]

/-- The first part of a key. -/
def first (key : List String) : String := key.headD ""

@[simp] theorem first_cons (k : String) (p : List String) : first (k :: p) = k := rfl

namespace Entries

/-! ## Replacing an entry -/

theorem lookup_concat {key : String} {es : Entries} (h : es.lookup key = none) (node : Node)
    (k : String) :
    (es ++ [(key, node)]).lookup k = if k = key then some node else es.lookup k := by
  by_cases hk : k = key
  · subst hk
    simp [List.lookup_append, h]
  · simp [List.lookup_append, Keyed.lookup_cons, hk]

theorem lookup_concat_self {k : String} {es : Entries} (h : es.lookup k = none) (node : Node) :
    (es ++ [(k, node)]).lookup k = some node := by
  rw [lookup_concat h, if_pos rfl]

theorem lookup_replace (key : String) (node : Node) (es : Entries) (k : String) :
    (replace key node es).lookup k =
      if k = key then (es.lookup key).map fun _ => node else es.lookup k := by
  induction es with
  | nil => simp [replace]
  | cons e es ih =>
    obtain ⟨first, old⟩ := e
    by_cases hfirst : first = key
    · subst hfirst
      by_cases hk : k = first <;> simp [replace, Keyed.lookup_cons, hk]
    · rw [replace, if_neg hfirst, Keyed.lookup_cons, ih, Keyed.lookup_cons, Keyed.lookup_cons]
      by_cases hk : k = key
      · subst hk
        simp [Ne.symm hfirst]
      · simp [hk]

theorem lookup_replace_self {k : String} {es : Entries} {node : Node} (h : es.lookup k = some node)
    (new : Node) : (replace k new es).lookup k = some new := by
  rw [lookup_replace, if_pos rfl, h, Option.map_some]

/-! ## What stays -/

/-- Only entries with some names were touched: those with other names are still there, in their
order. -/
def Frame (names : List String) (es es' : Entries) : Prop :=
  ∀ P : String → Bool, (∀ k ∈ names, P k = false) →
    es'.filter (fun e => P e.1) = es.filter fun e => P e.1

theorem Frame.trans {names : List String} {es es' es'' : Entries} (h : Frame names es es')
    (h' : Frame names es' es'') : Frame names es es'' :=
  fun P hP => (h' P hP).trans (h P hP)

theorem lookup_filter_self (es : Entries) (k : String) :
    (es.filter fun e => e.1 = k).lookup k = es.lookup k := by
  induction es with
  | nil => rfl
  | cons e es ih =>
    obtain ⟨first, node⟩ := e
    by_cases hfirst : first = k
    · simp [hfirst]
    · simp [hfirst, Ne.symm hfirst, Keyed.lookup_cons, ih]

theorem Frame.lookup {names : List String} {es es' : Entries} (h : Frame names es es')
    {k : String} (hk : k ∉ names) : es'.lookup k = es.lookup k := by
  rw [← lookup_filter_self es' k, ← lookup_filter_self es k, h fun j => j = k]
  intro j hj
  have hne : j ≠ k := fun h => hk (h ▸ hj)
  simp [hne]

theorem frame_replace (key : String) (node : Node) (es : Entries) :
    Frame [key] es (replace key node es) := by
  intro P hP
  have hkey : P key = false := hP key List.mem_cons_self
  induction es with
  | nil => rfl
  | cons e es ih =>
    obtain ⟨first, old⟩ := e
    by_cases hfirst : first = key
    · simp [replace, hfirst, hkey]
    · simp [replace, hfirst, List.filter_cons, ih]

theorem frame_concat (key : String) (node : Node) (es : Entries) :
    Frame [key] es (es ++ [(key, node)]) := by
  intro P hP
  simp [List.filter_append, hP key List.mem_cons_self]

theorem frame_erase (key : String) (es : Entries) : Frame [key] es (erase key es) := by
  intro P hP
  have hkey : P key = false := hP key List.mem_cons_self
  induction es with
  | nil => rfl
  | cons e es ih =>
    obtain ⟨first, old⟩ := e
    by_cases hfirst : first = key
    · simp [erase, hfirst, hkey]
    · simp [erase, hfirst, List.filter_cons, ih]

/-! ## Entries that stand alone -/

/-- At most one entry has a name. -/
def Single (k : String) (es : Entries) : Prop := (es.filter fun e => e.1 = k).length ≤ 1

theorem Frame.single {j k : String} {es es' : Entries} (h : Frame [j] es es') (hk : k ≠ j)
    (hsingle : Single k es) : Single k es' := by
  rw [Single, h (fun i => i = k) (by simpa using Ne.symm hk)]
  exact hsingle

theorem filter_eq_nil {k : String} {es : Entries} (h : es.lookup k = none) :
    es.filter (fun e => e.1 = k) = [] := by
  rw [List.filter_eq_nil_iff]
  intro e he
  have hne := List.lookup_eq_none_iff.1 h e he
  simpa using Ne.symm (bne_iff_ne.1 hne)

theorem single_concat {k : String} {es : Entries} (h : es.lookup k = none) (node : Node) :
    Single k (es ++ [(k, node)]) := by
  rw [Single, List.filter_append, filter_eq_nil h, List.nil_append]
  exact List.length_filter_le _ _

theorem single_replace {k : String} {es : Entries} (node : Node) (h : Single k es) :
    Single k (replace k node es) := by
  have hlength : ((replace k node es).filter fun e => e.1 = k).length =
      (es.filter fun e => e.1 = k).length := by
    clear h
    induction es with
    | nil => rfl
    | cons e es ih =>
      by_cases hfirst : e.1 = k
      · simp [replace, hfirst]
      · simp [replace, hfirst, ih]
  rwa [Single, hlength]

theorem Single.lookup_erase {k : String} {es : Entries} (h : Single k es) :
    (erase k es).lookup k = none := by
  induction es with
  | nil => rfl
  | cons e es ih =>
    obtain ⟨first, old⟩ := e
    by_cases hfirst : first = k
    · subst hfirst
      have hnil : es.filter (fun e => e.1 = first) = [] := by
        rw [← List.length_eq_zero_iff]
        rw [Single, List.filter_cons_of_pos (by simp), List.length_cons] at h
        omega
      rw [erase, if_pos rfl, ← lookup_filter_self, hnil, List.lookup_nil]
    · rw [Single, List.filter_cons_of_neg (by simpa using hfirst)] at h
      rw [erase, if_neg hfirst, Keyed.lookup_cons, if_neg (Ne.symm hfirst), ih h]

end Entries

/-! ## Free keys -/

/-- A key can be given a value: its first part is not there, or is a table of dotted keys where the
rest of the key is free. -/
inductive IsFree : List String → Entries → Prop
  | absent {k : String} {p : List String} {es : Entries} (h : es.lookup k = none) :
      IsFree (k :: p) es
  | inside {k : String} {p : List String} {es sub : Entries}
      (h : es.lookup k = some (.table .dotted sub)) (hsub : IsFree p sub) : IsFree (k :: p) es

theorem IsFree.ne_nil {p : List String} {es : Entries} (h : IsFree p es) : p ≠ [] := by
  cases h <;> exact List.cons_ne_nil _ _

/-- Whether a key is free depends on the entry with its first part. -/
theorem IsFree.congr {k : String} {p : List String} {es es' : Entries} (h : IsFree (k :: p) es)
    (hlookup : es'.lookup k = es.lookup k) : IsFree (k :: p) es' := by
  cases h with
  | absent h => exact .absent (hlookup.trans h)
  | inside h hsub => exact .inside (hlookup.trans h) hsub

theorem isFree_of_lookup {p : List String} {es : Entries} (hp : p ≠ [])
    (h : es.lookup (first p) = none) : IsFree p es := by
  obtain ⟨k, p, rfl⟩ := List.exists_cons_of_ne_nil hp
  exact .absent h

theorem isFree_nil {p : List String} (h : p ≠ []) : IsFree p [] :=
  isFree_of_lookup h List.lookup_nil

theorem splitKey_append (path : List String) (key : String) :
    Entries.splitKey (path ++ [key]) = some (path, key) := by
  simp [Entries.splitKey]

theorem IsFree.of_inside {k : String} {p : List String} {es sub : Entries} (h : IsFree (k :: p) es)
    (hlookup : es.lookup k = some (.table .dotted sub)) : IsFree p sub := by
  cases h with
  | absent h =>
    rw [hlookup] at h
    cases h
  | inside h hsub =>
    rw [hlookup] at h
    cases h
    exact hsub

/-- Keys stay free beside a key that leads through an entry, if they do within the entry. -/
theorem IsFree.beside {k : String} {p q : List String} {es es' sub : Entries} (h : IsFree q es)
    (hframe : Entries.Frame [k] es es') (hlookup : es'.lookup k = some (.table .dotted sub))
    (hq : Apart (k :: p) q) (hsub : ∀ q, Apart p q → IsFree (k :: q) es → IsFree q sub) :
    IsFree q es' := by
  obtain ⟨j, q, rfl⟩ := List.exists_cons_of_ne_nil hq.ne_nil
  by_cases hj : j = k
  · subst hj
    exact .inside hlookup (hsub q (apart_cons.1 hq) h)
  · exact h.congr (hframe.lookup (by simpa using hj))

/-- **A free key can be given a value**, and other free keys stay free. Only the entry with its
first part is touched. -/
theorem IsFree.assign {path : List String} {key : String} {es : Entries}
    (h : IsFree (path ++ [key]) es) (v : Value) : ∃ es', Entries.assign path key v es = some es' ∧
      (∀ q, Apart (path ++ [key]) q → IsFree q es → IsFree q es') ∧
      Entries.Frame [first (path ++ [key])] es es' := by
  induction path generalizing es with
  | nil =>
    cases h with
    | inside _ hsub => exact absurd rfl hsub.ne_nil
    | absent h =>
      have hframe := Entries.frame_concat key (.value v) es
      refine ⟨_, by simp [Entries.assign, h], fun q hq hfree => ?_, hframe⟩
      obtain ⟨k, q, rfl⟩ := List.exists_cons_of_ne_nil hq.ne_nil
      have hk : k ≠ key := by
        rintro rfl
        exact hq.1 (List.cons_prefix_cons.2 ⟨rfl, List.nil_prefix⟩)
      exact hfree.congr (hframe.lookup (by simpa using hk))
  | cons k path ih =>
    cases h with
    | absent h =>
      obtain ⟨sub, hsub, hfree, -⟩ := ih (isFree_nil (by simp))
      have hframe := Entries.frame_concat k (.table .dotted sub) es
      refine ⟨_, by simp [Entries.assign, h, hsub], fun q hq hq' => ?_, hframe⟩
      refine hq'.beside hframe (Entries.lookup_concat_self h _) hq fun q hq _ => ?_
      exact hfree q hq (isFree_nil hq.ne_nil)
    | @inside _ _ _ sub h hsub =>
      obtain ⟨sub', hsub', hfree, -⟩ := ih hsub
      have hframe := Entries.frame_replace k (.table .dotted sub') es
      refine ⟨_, by simp [Entries.assign, h, hsub'], fun q hq hq' => ?_, hframe⟩
      refine hq'.beside hframe (Entries.lookup_replace_self h _) hq fun q hq hinner => ?_
      exact hfree q hq (hinner.of_inside h)

/-- A key of one part adds an entry behind the others; one of more parts leaves entries with other
names as they are. -/
theorem filter_assign {path : List String} {key : String} {v : Value} {es es' : Entries}
    (h : Entries.assign path key v es = some es')
    (hframe : Entries.Frame [first (path ++ [key])] es es') {P : String → Bool}
    (hP : P (first (path ++ [key])) → path = []) : es'.filter (fun e => P e.1) =
      es.filter (fun e => P e.1) ++
        if P (first (path ++ [key])) then [(key, .value v)] else [] := by
  by_cases hfirst : P (first (path ++ [key]))
  · obtain rfl := hP hfirst
    rw [Entries.assign] at h
    cases hlookup : es.lookup key with
    | some node => simp [hlookup] at h
    | none =>
      rw [hlookup] at h
      obtain rfl := Option.some.inj h
      have hkey : P key := hfirst
      simp [List.filter_append, hkey]
  · rw [if_neg hfirst, List.append_nil]
    exact hframe P (by simpa using hfirst)

end GeoPartition.Toml
