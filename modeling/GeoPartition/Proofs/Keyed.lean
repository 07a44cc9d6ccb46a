import Mathlib
import GeoPartition.Keyed

/-!
# Look-up in lists in the order of their keys

A sorted list is its look-up function: insertion changes the answer at its key only, and two sorted
lists with the same answers are equal. So insertions can be compared key by key.
-/

namespace GeoPartition.Keyed

variable {α : Type} {l : List (String × α)}

theorem lookup_cons (k first : String) (v : α) (l : List (String × α)) :
    ((first, v) :: l).lookup k = if k = first then some v else l.lookup k := by
  rw [List.lookup_cons]
  by_cases h : k = first
  · simp [h]
  · simp [h, beq_false_of_ne h]

/-- Lists with the same keys, item by item. -/
theorem map_fst_eq {β : Type} {R : String × α → String × β → Prop} {m : List (String × β)}
    (h : List.Forall₂ (fun a b => b.1 = a.1 ∧ R a b) l m) : m.map Prod.fst = l.map Prod.fst := by
  induction h with
  | nil => rfl
  | cons hab _ ih => rw [List.map_cons, List.map_cons, hab.1, ih]

/-- Look-up in a list of which the entries at one key are left out. -/
theorem lookup_filter_ne (key : String) (l : List (String × α)) (k : String) :
    (l.filter (·.1 ≠ key)).lookup k = if k = key then none else l.lookup k := by
  induction l with
  | nil => simp
  | cons e l ih =>
    obtain ⟨first, v⟩ := e
    by_cases hfirst : first = key
    · subst hfirst
      rw [List.filter_cons_of_neg (by simp), ih, lookup_cons]
      by_cases hk : k = first <;> simp [hk]
    · rw [List.filter_cons_of_pos (by simpa using hfirst), lookup_cons, lookup_cons, ih]
      by_cases hk : k = first
      · subst hk
        simp [hfirst]
      · simp [hk]

theorem lookup_eq_none {key : String} (h : ∀ e ∈ l, key < e.1) : l.lookup key = none := by
  rw [List.lookup_eq_none_iff]
  intro e he
  simpa using (h e he).ne

theorem Sorted.lookup_insertWith (h : Sorted l) (combine : α → α → α) (key : String) (value : α)
    (k : String) :
    (Keyed.insertWith combine key value l).lookup k =
      if k = key then some ((l.lookup key).elim value fun old => combine old value)
      else l.lookup k := by
  induction l with
  | nil => simp [Keyed.insertWith, lookup_cons]
  | cons e l ih =>
    obtain ⟨first, old⟩ := e
    obtain ⟨hfirst, hl⟩ := List.pairwise_cons.1 h
    rw [Keyed.insertWith]
    by_cases hlt : key < first
    · -- The key comes before all others, so it was not there.
      have hnone : ((first, old) :: l).lookup key = none := lookup_eq_none fun e he => by
        rcases List.mem_cons.1 he with rfl | he
        · exact hlt
        · exact hlt.trans (hfirst e he)
      rw [if_pos hlt, hnone, lookup_cons]
      rfl
    · rw [if_neg hlt]
      by_cases heq : key = first
      · subst heq
        rw [if_pos rfl]
        simp only [lookup_cons, ↓reduceIte, Option.elim_some]
        by_cases hk : k = key <;> simp [hk]
      · rw [if_neg heq, lookup_cons, ih hl, lookup_cons, lookup_cons, if_neg heq]
        by_cases hk : k = first
        · subst hk
          simp [Ne.symm heq]
        · simp [hk]

/-- A key behind all others is put at the end. -/
theorem insertWith_of_forall_lt (combine : α → α → α) {key : String} (value : α)
    (h : ∀ e ∈ l, e.1 < key) : Keyed.insertWith combine key value l = l ++ [(key, value)] := by
  induction l with
  | nil => rfl
  | cons e l ih =>
    obtain ⟨first, old⟩ := e
    obtain ⟨hfirst, hl⟩ := List.forall_mem_cons.1 h
    rw [Keyed.insertWith, if_neg hfirst.not_gt, if_neg hfirst.ne', ih hl, List.cons_append]

theorem Sorted.nodup (h : Sorted l) : l.Nodup := by
  refine List.Pairwise.imp ?_ h
  rintro a b hab rfl
  exact lt_irrefl a.1 hab

theorem mem_iff_lookup (h : (l.map Prod.fst).Nodup) {k : String} {v : α} :
    (k, v) ∈ l ↔ l.lookup k = some v := by
  induction l with
  | nil => simp
  | cons e l ih =>
    obtain ⟨first, old⟩ := e
    obtain ⟨hfirst, hl⟩ := List.nodup_cons.1 h
    rw [List.mem_cons, ih hl, lookup_cons]
    by_cases hk : k = first
    · subst hk
      have hnone : l.lookup k ≠ some v := fun hv =>
        hfirst (List.mem_map.2 ⟨_, (ih hl).2 hv, rfl⟩)
      simp [hnone, eq_comm]
    · simp [hk]

/-- Look-up does not depend on the order, if no key stands there twice. -/
theorem lookup_perm {m : List (String × α)} (h : (l.map Prod.fst).Nodup) (hperm : l.Perm m)
    (k : String) : l.lookup k = m.lookup k := by
  have h' : (m.map Prod.fst).Nodup := (hperm.map Prod.fst).nodup_iff.1 h
  refine Option.ext fun v => ?_
  rw [← mem_iff_lookup h, ← mem_iff_lookup h', hperm.mem_iff]

theorem Sorted.mem_iff (h : Sorted l) {k : String} {v : α} :
    (k, v) ∈ l ↔ l.lookup k = some v :=
  mem_iff_lookup ((List.pairwise_map.2 h).imp ne_of_lt)

/-- Values that are inserted one by one are found at their keys, if no key comes twice. -/
theorem lookup_foldl_insertWith (hl : Sorted l) (combine : α → α → α) {ms : List (String × α)}
    (hnodup : (ms.map Prod.fst).Nodup) (hnew : ∀ m ∈ ms, l.lookup m.1 = none) (k : String) :
    (ms.foldl (fun l m => Keyed.insertWith combine m.1 m.2 l) l).lookup k =
      (ms.lookup k).or (l.lookup k) := by
  induction ms generalizing l with
  | nil => rfl
  | cons m ms ih =>
    obtain ⟨key, v⟩ := m
    obtain ⟨hkey, hnodup⟩ := List.nodup_cons.1 hnodup
    obtain ⟨hnone, hnew⟩ := List.forall_mem_cons.1 hnew
    have hgrown : ∀ m ∈ ms, (Keyed.insertWith combine key v l).lookup m.1 = none := by
      intro m hm
      have hne : m.1 ≠ key := fun h => hkey (List.mem_map.2 ⟨m, hm, h⟩)
      rw [hl.lookup_insertWith, if_neg hne, hnew m hm]
    rw [List.foldl_cons, ih hl.insertWith hnodup hgrown, hl.lookup_insertWith, lookup_cons]
    by_cases hk : k = key
    · subst hk
      have hms : ms.lookup k = none := by
        rw [List.lookup_eq_none_iff]
        intro m hm
        simpa using fun h : k = m.1 => hkey (List.mem_map.2 ⟨m, hm, h.symm⟩)
      simp [hms, hnone]
    · simp [hk]

/-- **A sorted list is its look-up function.** -/
theorem Sorted.ext {m : List (String × α)} (h : Sorted l) (h' : Sorted m)
    (heq : ∀ k, l.lookup k = m.lookup k) : l = m := by
  have hperm : l.Perm m := (List.perm_ext_iff_of_nodup h.nodup h'.nodup).2 fun e => by
    rw [h.mem_iff (k := e.1) (v := e.2), h'.mem_iff (k := e.1) (v := e.2), heq]
  exact hperm.eq_of_pairwise (fun a b _ _ hab hba => absurd (hab.trans hba) (lt_irrefl a.1)) h h'

end GeoPartition.Keyed
