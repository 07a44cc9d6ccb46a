/-!
# Lists in the order of their keys

An association list with text keys is *sorted* if its keys increase strictly, in the order of code
points. Insertion keeps a list sorted; what becomes of the value of a key that is there already is
up to the caller.
-/

namespace GeoPartition.Keyed

variable {α : Type}

/-- The keys increase strictly. -/
def Sorted (l : List (String × α)) : Prop := l.Pairwise fun a b => a.1 < b.1

/-- Puts a value at its key; `combine old new` is the new value of a key that has an old one. -/
def insertWith (combine : α → α → α) (key : String) (value : α) :
    List (String × α) → List (String × α)
  | [] => [(key, value)]
  | (k, old) :: rest =>
    if key < k then (key, value) :: (k, old) :: rest
    else if key = k then (k, combine old value) :: rest
    else (k, old) :: insertWith combine key value rest

theorem mem_insertWith {combine : α → α → α} {key : String} {value : α} {l : List (String × α)}
    {e : String × α} (h : e ∈ insertWith combine key value l) : e.1 = key ∨ e ∈ l := by
  induction l with
  | nil => simp_all [insertWith]
  | cons a l ih =>
    obtain ⟨k, old⟩ := a
    unfold insertWith at h
    split at h
    · simp_all only [List.mem_cons]
      grind
    · split at h
      · subst key
        simp_all only [List.mem_cons]
        grind
      · simp_all only [List.mem_cons]
        grind

theorem Sorted.insertWith {combine : α → α → α} {key : String} {value : α}
    {l : List (String × α)} (h : Sorted l) : Sorted (insertWith combine key value l) := by
  induction l with
  | nil => simp [Keyed.insertWith, Sorted]
  | cons a l ih =>
    obtain ⟨k, old⟩ := a
    simp only [Sorted, List.pairwise_cons] at h ih
    unfold Keyed.insertWith Sorted
    split
    · rename_i hlt
      simp only [List.pairwise_cons, List.mem_cons]
      refine ⟨fun b hb => ?_, h⟩
      rcases hb with rfl | hb
      · exact hlt
      · exact String.lt_trans hlt (h.1 b hb)
    · split
      · exact List.pairwise_cons.2 h
      · rename_i hlt hne
        refine List.pairwise_cons.2 ⟨fun b hb => ?_, ih h.2⟩
        rcases mem_insertWith hb with hk | hb
        · have : k < key := Std.lt_of_le_of_ne (String.not_lt.1 hlt) (Ne.symm hne)
          simpa [hk] using this
        · exact h.1 b hb

end GeoPartition.Keyed
