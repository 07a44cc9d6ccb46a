import Mathlib

/-!
# Computations that may fail

When a composed computation succeeds: each of its parts does, and the answer is put together from
theirs. A list is read item by item, so what is read stands item by item beside the list.
-/

namespace GeoPartition

section

variable {ε α β : Type}

theorem bind_eq_ok_iff {x : Except ε α} {f : α → Except ε β} {b : β} :
    x >>= f = .ok b ↔ ∃ a, x = .ok a ∧ f a = .ok b := by
  cases x <;> simp [bind, Except.bind]

theorem bind_eq_error_iff {x : Except ε α} {f : α → Except ε β} {e : ε} :
    x >>= f = .error e ↔ x = .error e ∨ ∃ a, x = .ok a ∧ f a = .error e := by
  cases x <;> simp [bind, Except.bind]

theorem map_eq_ok_iff {x : Except ε α} {f : α → β} {b : β} :
    f <$> x = .ok b ↔ ∃ a, x = .ok a ∧ f a = b := by
  cases x <;> simp [Functor.map, Except.map]

theorem map_eq_error_iff {x : Except ε α} {f : α → β} {e : ε} :
    f <$> x = .error e ↔ x = .error e := by
  cases x <;> simp [Functor.map, Except.map]

theorem mapError_eq_ok_iff {ε' : Type} {x : Except ε α} {f : ε → ε'} {a : α} :
    x.mapError f = .ok a ↔ x = .ok a := by
  cases x <;> simp [Except.mapError]

/-! ## Lists -/

variable {f : α → Except ε β} {l : List α}

theorem mapM_eq_ok_iff {m : List β} :
    l.mapM f = .ok m ↔ List.Forall₂ (fun a b => f a = .ok b) l m := by
  induction l generalizing m with
  | nil => cases m <;> simp [pure, Except.pure]
  | cons a l ih =>
    rw [List.mapM_cons, bind_eq_ok_iff]
    constructor
    · rintro ⟨b, hb, h⟩
      obtain ⟨bs, hbs, hm⟩ := bind_eq_ok_iff.1 h
      cases hm
      exact .cons hb (ih.1 hbs)
    · rintro (_ | ⟨hb, hbs⟩)
      exact ⟨_, hb, bind_eq_ok_iff.2 ⟨_, ih.2 hbs, rfl⟩⟩

/-- Lists whose items read alike read alike. -/
theorem mapM_congr {m : List α} (h : List.Forall₂ (fun a b => f a = f b) l m) :
    l.mapM f = m.mapM f := by
  induction h with
  | nil => rfl
  | cons hab _ ih => rw [List.mapM_cons, List.mapM_cons, hab, ih]

/-- A list can be read exactly if all of its items can. -/
theorem exists_mapM_eq_ok_iff : (∃ m, l.mapM f = .ok m) ↔ ∀ a ∈ l, ∃ b, f a = .ok b := by
  induction l with
  | nil => exact iff_of_true ⟨[], rfl⟩ fun a ha => absurd ha List.not_mem_nil
  | cons a l ih =>
    rw [List.forall_mem_cons, ← ih]
    constructor
    · rintro ⟨m, hm⟩
      cases mapM_eq_ok_iff.1 hm with
      | cons hb hbs => exact ⟨⟨_, hb⟩, _, mapM_eq_ok_iff.2 hbs⟩
    · rintro ⟨⟨b, hb⟩, bs, hbs⟩
      exact ⟨b :: bs, mapM_eq_ok_iff.2 (.cons hb (mapM_eq_ok_iff.1 hbs))⟩

/-- If items can only be read or have one fault, a list has that fault if one of its items has. -/
theorem mapM_eq_error_iff {fault e : ε} (h : ∀ a e, f a = .error e → e = fault) :
    l.mapM f = .error e ↔ e = fault ∧ ∃ a ∈ l, f a = .error fault := by
  induction l with
  | nil => simp [pure, Except.pure]
  | cons a l ih =>
    rw [List.mapM_cons, bind_eq_error_iff]
    simp only [bind_eq_error_iff, ih, List.exists_mem_cons_iff]
    cases ha : f a with
    | error e' =>
      obtain rfl := h a e' ha
      simp [eq_comm]
    | ok b => simp [pure, Except.pure]

theorem eq_nil_of_mapM_eq_ok_nil (h : l.mapM f = .ok []) : l = [] := by
  cases mapM_eq_ok_iff.1 h
  rfl

/-! ## Lists side by side -/

/-- What stands item by item beside the same list stands so beside each other. -/
theorem forall₂_of_left {γ : Type} {R : α → β → Prop} {S : α → γ → Prop} {T : β → γ → Prop}
    (h : ∀ a b c, R a b → S a c → T b c) {m : List β} {n : List γ}
    (hm : List.Forall₂ R l m) (hn : List.Forall₂ S l n) : List.Forall₂ T m n := by
  induction hm generalizing n with
  | nil =>
    cases hn
    exact .nil
  | cons hab _ ih =>
    cases hn with
    | cons hac hn => exact .cons (h _ _ _ hab hac) (ih hn)

theorem exists_of_forall₂ {R : α → β → Prop} {m : List β}
    (h : List.Forall₂ R l m) : ∀ a ∈ l, ∃ b, R a b := by
  induction h with
  | nil => nofun
  | cons hab _ ih => exact List.forall_mem_cons.2 ⟨⟨_, hab⟩, ih⟩

end

end GeoPartition
