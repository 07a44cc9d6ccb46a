import GeoPartition.Proofs.Keyed
import GeoPartition.Tally.Shared

/-!
# Families of handles

The handles that stand for one tally are a *family*: the handle that was made new with it, and all
clones of members. Families are numbered in the order in which they were made. A history is the list
of the steps taken so far, the latest first; it alone says which family a handle belongs to
(`family?`) and what was recorded through the members of a family (`recorded`).

**Theorem (`handles_faithful`).** What is seen through a handle is what was recorded through its
family, in the order in which it was recorded. Nothing else has an influence, what was handed out
does not change any more, and the members left behind go on with the tally.

The invariant (`Reflects`) is that a handle stands for the place with the number of its family, and
that the tally there is what the family recorded, as long as the family has a member. A place that
was left empty is never seen again: no member is left to be cloned, and a new tally gets a place of
its own.
-/

namespace GeoPartition.SharedTallies

/-! ## What a history says -/

namespace Step

def isNew : Step → Bool
  | new _ => true
  | _ => false

def isRecording : Step → Bool
  | record _ _ | recordSkipped _ => true
  | _ => false

/-- The handle that a step goes through, or makes out of nothing. -/
def handle : Step → String
  | new handle | clone handle _ | record handle _ | recordSkipped handle | snapshot handle
  | drop handle | intoInner handle => handle

/-- The handle that a step makes or ends. -/
def bound? : Step → Option String
  | new handle | clone _ handle | drop handle | intoInner handle => some handle
  | record _ _ | recordSkipped _ | snapshot _ => none

end Step

/-- The number of families made. -/
def made (past : List Step) : ℕ := past.countP Step.isNew

/-- The family of a handle, if it is alive. A clone of a handle that is not alive is not made. -/
def family? : (past : List Step) → (handle : String) → Option ℕ
  | [], _ => none
  | .new first :: past, handle => if handle = first then some (made past) else family? past handle
  | .clone original copy :: past, handle =>
    if handle = copy then (family? past original).or (family? past handle) else family? past handle
  | .drop last :: past, handle | .intoInner last :: past, handle =>
    if handle = last then none else family? past handle
  | .record _ _ :: past, handle | .recordSkipped _ :: past, handle | .snapshot _ :: past, handle =>
    family? past handle

/-- What was recorded through the members of a family. -/
def recorded (family : ℕ) : (past : List Step) → Tally
  | [] => .empty
  | .record handle bucket :: past =>
    if family? past handle = some family then (recorded family past).record bucket
    else recorded family past
  | .recordSkipped handle :: past =>
    if family? past handle = some family then (recorded family past).recordSkipped
    else recorded family past
  | _ :: past => recorded family past

/-- The state after a history. -/
def after (past : List Step) : SharedTallies := empty.run past.reverse

/-- What is handed out in a run, step by step. -/
def answers : SharedTallies → List Step → List (Option Tally)
  | _, [] => []
  | s, x :: steps => (s.step x).2 :: answers (s.step x).1 steps

theorem after_cons (x : Step) (past : List Step) : after (x :: past) = ((after past).step x).1 := by
  simp [after, run]

/-- A step that neither makes nor ends a handle leaves it in its family. -/
theorem family?_cons {x : Step} {handle : String} (h : x.bound? ≠ some handle) (past : List Step) :
    family? (x :: past) handle = family? past handle := by
  cases x <;> simp_all [family?, Step.bound?, eq_comm]

/-- A step that does not record through a member adds nothing. -/
theorem recorded_cons {x : Step} {family : ℕ} {past : List Step}
    (h : x.isRecording → family? past x.handle ≠ some family) :
    recorded family (x :: past) = recorded family past := by
  cases x <;> simp_all [recorded, Step.isRecording, Step.handle]

theorem made_cons (x : Step) (past : List Step) :
    made (x :: past) = made past + if x.isNew then 1 else 0 := by
  rw [made, made, List.countP_cons]

theorem family?_lt_made {past : List Step} {handle : String} {family : ℕ}
    (h : family? past handle = some family) : family < made past := by
  induction past generalizing handle with
  | nil => cases h
  | cons x past ih =>
    have hle : made past ≤ made (x :: past) := by simp [made_cons]
    cases x with
    | new first =>
      simp only [family?] at h
      split_ifs at h
      · cases h
        simp [made_cons, Step.isNew]
      · exact (ih h).trans_le hle
    | clone original copy =>
      simp only [family?] at h
      split_ifs at h
      · rcases Option.or_eq_some_iff.1 h with h | ⟨-, h⟩ <;> exact (ih h).trans_le hle
      · exact (ih h).trans_le hle
    | drop last | intoInner last =>
      simp only [family?] at h
      split_ifs at h
      exact (ih h).trans_le hle
    | record | recordSkipped | snapshot => exact (ih h).trans_le hle

/-- Nothing was recorded through a family that is still to be made. -/
theorem recorded_of_made_le {past : List Step} {family : ℕ} (h : made past ≤ family) :
    recorded family past = .empty := by
  induction past with
  | nil => rfl
  | cons x past ih =>
    have hpast : made past ≤ family := le_trans (by simp [made_cons]) h
    rw [recorded_cons fun _ hx => absurd (family?_lt_made hx) hpast.not_gt, ih hpast]

/-! ## Handles and their places -/

variable (s : SharedTallies)

theorem place?_forget (handle k : String) :
    (s.forget handle).place? k = if k = handle then none else s.place? k :=
  Keyed.lookup_filter_ne handle s.handles k

theorem place?_bind (handle : String) (place : ℕ) (k : String) :
    (s.bind handle place).place? k = if k = handle then some place else s.place? k := by
  rw [place?, bind, Keyed.lookup_cons, Keyed.lookup_filter_ne]
  split_ifs <;> rfl

theorem place?_update (handle : String) (f : Tally → Tally) (k : String) :
    (s.update handle f).place? k = s.place? k := by
  unfold update
  split <;> rfl

theorem place?_intoInner (handle k : String) :
    (s.intoInner handle).1.place? k = if k = handle then none else s.place? k := by
  rw [← place?_forget, intoInner]
  split
  · dsimp only
    split_ifs <;> rfl
  · rfl

variable {s}

/-- A handle holds its place. -/
theorem isHeld_of_place? {handle : String} {place : ℕ} (h : s.place? handle = some place) :
    s.isHeld place := by
  obtain ⟨l, m, hl, -⟩ := List.lookup_eq_some_iff.1 h
  simp [isHeld, hl]

theorem length_tallies_intoInner (handle : String) :
    (s.intoInner handle).1.tallies.length = s.tallies.length := by
  unfold intoInner
  split
  · dsimp only
    split_ifs
    · rfl
    · exact List.length_set
  · rfl

/-- **The tally behind a member left behind** stays when a handle is turned into its tally. -/
theorem getElem?_tallies_intoInner {handle k : String} {place : ℕ} (hk : k ≠ handle)
    (h : s.place? k = some place) : (s.intoInner handle).1.tallies[place]? = s.tallies[place]? := by
  have hrest : (s.forget handle).place? k = some place := by rw [place?_forget, if_neg hk, h]
  unfold intoInner
  split
  · rename_i own hown
    dsimp only
    split_ifs with hshared
    · rfl
    · have hne : own ≠ place := by
        rintro rfl
        exact hshared (isHeld_of_place? hrest)
      exact List.getElem?_set_ne hne
  · rfl

/-! ## What the state holds -/

/-- The state holds what a history says. -/
structure Reflects (s : SharedTallies) (past : List Step) : Prop where
  length_tallies : s.tallies.length = made past
  place?_eq : ∀ handle, s.place? handle = family? past handle
  getElem?_tallies : ∀ handle family, family? past handle = some family →
    s.tallies[family]? = some (recorded family past)

namespace Reflects

variable {past : List Step}

theorem contents_eq (hs : Reflects s past) {handle : String} {family : ℕ}
    (h : family? past handle = some family) : s.contents handle = recorded family past := by
  rw [contents, hs.place?_eq, h, Option.bind_some, hs.getElem?_tallies handle family h]
  rfl

/-- Steps that make no tally and record nothing. -/
theorem of_silent {t : SharedTallies} {x : Step} (hs : Reflects s past) (hnew : x.isNew = false)
    (hrecording : x.isRecording = false) (hlength : t.tallies.length = s.tallies.length)
    (hplace : ∀ handle, t.place? handle = family? (x :: past) handle)
    (htally : ∀ handle family, family? (x :: past) handle = some family →
      t.tallies[family]? = some (recorded family past)) : Reflects t (x :: past) where
  length_tallies := by simp [hlength, hs.length_tallies, made_cons, hnew]
  place?_eq := hplace
  getElem?_tallies handle family h := by
    rw [recorded_cons (by simp [hrecording])]
    exact htally handle family h

theorem new (hs : Reflects s past) (first : String) :
    Reflects (s.new first) (.new first :: past) where
  length_tallies := by
    simp [SharedTallies.new, SharedTallies.bind, hs.length_tallies, made_cons, Step.isNew]
  place?_eq handle := by
    rw [SharedTallies.new, place?_bind, hs.length_tallies, family?]
    exact ite_congr rfl (fun _ => rfl) fun _ => hs.place?_eq handle
  getElem?_tallies handle family h := by
    show (s.tallies ++ [Tally.empty])[family]? = some (recorded family past)
    simp only [family?] at h
    split_ifs at h
    · -- The new tally is empty, as nothing was recorded through its family before.
      cases h
      rw [recorded_of_made_le le_rfl, ← hs.length_tallies, List.getElem?_concat_length]
    · rw [List.getElem?_append_left (hs.length_tallies ▸ family?_lt_made h)]
      exact hs.getElem?_tallies handle family h

theorem clone (hs : Reflects s past) (original copy : String) :
    Reflects (s.clone original copy) (.clone original copy :: past) := by
  unfold SharedTallies.clone
  cases hplace : s.place? original with
  | none =>
    have hdead : family? past original = none := hs.place?_eq original ▸ hplace
    have hsame (handle : String) :
        family? (.clone original copy :: past) handle = family? past handle := by
      simp [family?, hdead]
    refine of_silent hs rfl rfl rfl (fun handle => ?_) fun handle family h => ?_
    · rw [hsame, hs.place?_eq]
    · exact hs.getElem?_tallies handle family (hsame handle ▸ h)
  | some place =>
    have halive : family? past original = some place := hs.place?_eq original ▸ hplace
    have hfamily (handle : String) : family? (.clone original copy :: past) handle =
        if handle = copy then some place else family? past handle := by
      simp [family?, halive]
    refine of_silent hs rfl rfl rfl (fun handle => ?_) fun handle family h => ?_
    · rw [place?_bind, hfamily, hs.place?_eq]
    · rw [hfamily] at h
      split_ifs at h
      · cases h
        exact hs.getElem?_tallies original place halive
      · exact hs.getElem?_tallies handle family h

/-- A recording reaches the tally of its own family and no other. -/
theorem update {x : Step} (hs : Reflects s past) (handle : String) (f : Tally → Tally)
    (hnew : x.isNew = false) (hfamily : ∀ k, family? (x :: past) k = family? past k)
    (hrecorded : ∀ family, recorded family (x :: past) =
      if family? past handle = some family then f (recorded family past)
      else recorded family past) : Reflects (s.update handle f) (x :: past) where
  length_tallies := by
    unfold SharedTallies.update
    split <;> simp [hs.length_tallies, made_cons, hnew]
  place?_eq k := by rw [place?_update, hfamily, hs.place?_eq]
  getElem?_tallies k family h := by
    have htally := hs.getElem?_tallies k family (hfamily k ▸ h)
    rw [hrecorded, SharedTallies.update, hs.place?_eq]
    cases hhandle : family? past handle with
    | none => simpa using htally
    | some own =>
      dsimp only
      rw [List.getElem?_modify, htally]
      by_cases hown : own = family <;> simp [hown]

theorem drop (hs : Reflects s past) (last : String) :
    Reflects (s.forget last) (.drop last :: past) := by
  refine of_silent hs rfl rfl rfl (fun handle => ?_) fun handle family h => ?_
  · rw [place?_forget, hs.place?_eq, family?]
  · simp only [family?] at h
    split_ifs at h
    exact hs.getElem?_tallies handle family h

theorem intoInner (hs : Reflects s past) (last : String) :
    Reflects (s.intoInner last).1 (.intoInner last :: past) := by
  refine of_silent hs rfl rfl (length_tallies_intoInner last) (fun handle => ?_)
    fun handle family h => ?_
  · rw [place?_intoInner, hs.place?_eq, family?]
  · simp only [family?] at h
    split_ifs at h with hne
    rw [getElem?_tallies_intoInner hne (hs.place?_eq handle ▸ h)]
    exact hs.getElem?_tallies handle family h

/-- **One step** keeps the state and the history in agreement. -/
theorem step (hs : Reflects s past) (x : Step) : Reflects (s.step x).1 (x :: past) := by
  cases x with
  | new first => exact hs.new first
  | clone original copy => exact hs.clone original copy
  | record handle bucket => exact hs.update handle (·.record bucket) rfl (fun _ => rfl) fun _ => rfl
  | recordSkipped handle => exact hs.update handle (·.recordSkipped) rfl (fun _ => rfl) fun _ => rfl
  | snapshot handle => exact of_silent hs rfl rfl rfl hs.place?_eq hs.getElem?_tallies
  | drop last => exact hs.drop last
  | intoInner last => exact hs.intoInner last

end Reflects

/-- **A whole run** keeps them in agreement. -/
theorem reflects_after (past : List Step) : Reflects (after past) past := by
  induction past with
  | nil => exact ⟨rfl, fun _ => rfl, nofun⟩
  | cons x past ih => exact after_cons x past ▸ ih.step x

theorem contents_after {past : List Step} {handle : String} {family : ℕ}
    (h : family? past handle = some family) : (after past).contents handle = recorded family past :=
  (reflects_after past).contents_eq h

/-! ## What is handed out -/

/-- **Answers stay.** Whatever is done later, the answer to a step is that of its moment. -/
theorem getElem?_answers (past : List Step) (x : Step) (later : List Step) :
    (answers empty (past.reverse ++ x :: later))[past.length]? = some ((after past).step x).2 := by
  have hrun : ∀ (s : SharedTallies) (before : List Step),
      (answers s (before ++ x :: later))[before.length]? = some ((s.run before).step x).2 := by
    intro s before
    induction before generalizing s with
    | nil => rfl
    | cons y before ih => exact ih (s.step y).1
  rw [← List.length_reverse]
  exact hrun empty past.reverse

theorem intoInner_snd (handle : String) : (s.intoInner handle).2 = s.contents handle := by
  unfold intoInner
  split <;> rfl

/-- **Handles are faithful.** Through a handle is seen what was recorded through its family, and no
step changes that but a recording through a member. A snapshot is what is seen at its moment, and no
later step changes it. A handle is turned into what is seen through it, whether or not the family
has other members; for these nothing changes, and what they record is added. -/
theorem handles_faithful {past : List Step} {handle : String} {family : ℕ}
    (h : family? past handle = some family) :
    (after past).contents handle = recorded family past ∧
    (∀ x : Step, x.bound? ≠ some handle → (x.isRecording → family? past x.handle ≠ some family) →
      family? (x :: past) handle = some family ∧
        (after (x :: past)).contents handle = (after past).contents handle) ∧
    (∀ later, (answers empty (past.reverse ++ .snapshot handle :: later))[past.length]? =
      some (some (recorded family past))) ∧
    (∀ later, (answers empty (past.reverse ++ .intoInner handle :: later))[past.length]? =
      some (some (recorded family past))) ∧
    ∀ other, other ≠ handle → family? past other = some family →
      (after (.intoInner handle :: past)).contents other = recorded family past ∧
      (∀ bucket, (after (.record other bucket :: .intoInner handle :: past)).contents other =
        (recorded family past).record bucket) ∧
      (after (.recordSkipped other :: .intoInner handle :: past)).contents other =
        (recorded family past).recordSkipped := by
  have hcontents := contents_after h
  refine ⟨hcontents, fun x hbound hrecording => ?_, fun later => ?_, fun later => ?_,
    fun other hne hother => ?_⟩
  · have hstays : family? (x :: past) handle = some family := (family?_cons hbound past).trans h
    rw [contents_after hstays, recorded_cons hrecording, hcontents]
    exact ⟨hstays, rfl⟩
  · rw [getElem?_answers, ← hcontents]
    rfl
  · rw [getElem?_answers, ← hcontents, ← intoInner_snd]
    rfl
  · have hleft : family? (.intoInner handle :: past) other = some family := by
      rw [family?, if_neg hne, hother]
    have hrecord (bucket : String) :
        family? (.record other bucket :: .intoInner handle :: past) other = some family := hleft
    have hskip : family? (.recordSkipped other :: .intoInner handle :: past) other = some family :=
      hleft
    refine ⟨contents_after hleft, fun bucket => ?_, ?_⟩
    · rw [contents_after (hrecord bucket), recorded, if_pos hleft]
      rfl
    · rw [contents_after hskip, recorded, if_pos hleft]
      rfl

/-- Two families, of which the first has two members. -/
def twoFamilies : List Step :=
  [.recordSkipped "a", .record "c" "SW", .new "c", .record "b" "NE", .clone "a" "b", .new "a"]

/-- A member sees what its clone recorded and not what the other family did, and the clone goes on
when the member ends. -/
theorem handles_faithful_twoFamilies :
    family? twoFamilies "a" = some 0 ∧ family? twoFamilies "b" = some 0 ∧
    recorded 0 twoFamilies = (Tally.empty.record "NE").recordSkipped ∧
    (after twoFamilies).contents "a" = recorded 0 twoFamilies ∧
    (after (.record "c" "NE" :: twoFamilies)).contents "a" = (after twoFamilies).contents "a" ∧
    (answers empty (twoFamilies.reverse ++ [.snapshot "a", .record "b" "NE"]))[6]? =
      some (some (recorded 0 twoFamilies)) ∧
    (after (.record "b" "NW" :: .intoInner "a" :: twoFamilies)).contents "b" =
      (recorded 0 twoFamilies).record "NW" := by
  have ha : family? twoFamilies "a" = some 0 := by decide
  have hb : family? twoFamilies "b" = some 0 := by decide
  obtain ⟨hcontents, hapart, hsnapshot, -, hleft⟩ := handles_faithful ha
  exact ⟨ha, hb, by decide, hcontents, (hapart (.record "c" "NE") nofun (by decide)).2,
    hsnapshot [.record "b" "NE"], (hleft "b" (by decide) hb).2.1 "NW"⟩

end GeoPartition.SharedTallies
