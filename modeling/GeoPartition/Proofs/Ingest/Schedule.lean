import GeoPartition.Proofs.Ingest.InOrder

/-!
# Ingestion in any order

Several workers share the features of a run and one tally. A worker takes a feature that nobody has
taken, files it, and counts the outcome in one step on the shared tally. The order in which workers
take and finish features is their *schedule*; any number of workers may take part. A run may end as
soon as some worker has met a fault, with one of the faults met; without a fault it ends when
everything is counted.

**Theorem (`schedule_independence`).** Whatever the schedule, the run ends with a fault exactly if
the run in order does, the fault is that of a feature, and otherwise the tally is that of the run in
order.

The invariant (`Pool.Accounts`) says what the features finished so far account for: the shared tally
is the tally of those without a fault, and the faults met are theirs. At the end the finished
features are all features in some order, and the tally does not depend on the order.
-/

namespace GeoPartition.Ingest

open GeoJson (Feature)

/-- Workers over a list of features. -/
structure Pool where
  /-- The features that nobody has taken. -/
  waiting : List Feature
  /-- The busy workers, each with the feature it has taken. -/
  held : List (ℕ × Feature)
  /-- The shared tally. -/
  tally : Tally
  /-- The faults met. -/
  faults : List FeatureError

/-- What a worker does next. -/
inductive Action
  | take (worker place : ℕ)
  | finish (worker : ℕ)
deriving DecidableEq

namespace Pool

/-- All features wait, and nothing is counted. -/
def start (l : List Feature) : Pool := ⟨l, [], .empty, []⟩

/-- An idle worker takes a feature. -/
def take (pool : Pool) (worker place : ℕ) : Option Pool :=
  if (pool.held.lookup worker).isSome then none
  else pool.waiting[place]?.map fun f =>
    { pool with waiting := pool.waiting.eraseIdx place, held := (worker, f) :: pool.held }

section

variable (p : Partitioner) (skipInvalid : Bool)

/-- A busy worker counts the outcome of its feature, or meets a fault. -/
def finish (pool : Pool) (worker : ℕ) : Option Pool :=
  (pool.held.lookup worker).map fun f =>
    let held := pool.held.eraseP (worker == ·.1)
    match count skipInvalid pool.tally (bucket p f) with
    | .ok t => { pool with held := held, tally := t }
    | .error e => { pool with held := held, faults := e :: pool.faults }

def step (pool : Pool) : Action → Option Pool
  | .take worker place => pool.take worker place
  | .finish worker => pool.finish p skipInvalid worker

/-- The pool after a schedule, if the workers can keep to it. -/
def run (pool : Pool) (schedule : List Action) : Option Pool :=
  schedule.foldlM (step p skipInvalid) pool

end

/-- May a run end with `r`? -/
inductive Ends (pool : Pool) : Except FeatureError Tally → Prop
  | fault {e : FeatureError} : e ∈ pool.faults → Ends pool (.error e)
  | complete : pool.waiting = [] → pool.held = [] → pool.faults = [] → Ends pool (.ok pool.tally)

/-! ## What the finished features account for -/

variable {p : Partitioner} {skipInvalid : Bool} {l done : List Feature} {pool pool' : Pool}

/-- `done` are the features finished so far, of all features `l`. -/
structure Accounts (p : Partitioner) (skipInvalid : Bool) (l done : List Feature) (pool : Pool) :
    Prop where
  perm : (done ++ pool.held.map (·.2) ++ pool.waiting).Perm l
  tally : pool.tally = tallyOf p (done.filter fun f => (fault? skipInvalid (bucket p f)).isNone)
  faults : ∀ e, e ∈ pool.faults ↔ ∃ f ∈ done, fault? skipInvalid (bucket p f) = some e

theorem accounts_start (l : List Feature) : Accounts p skipInvalid l [] (start l) where
  perm := by simp [start]
  tally := rfl
  faults := by simp [start]

theorem perm_eraseP_of_lookup {held : List (ℕ × Feature)} {worker : ℕ} {f : Feature}
    (h : held.lookup worker = some f) :
    held.Perm ((worker, f) :: held.eraseP (worker == ·.1)) := by
  induction held with
  | nil => cases h
  | cons e held ih =>
    obtain ⟨w, g⟩ := e
    rw [List.lookup_cons] at h
    by_cases hw : worker = w
    · subst hw
      simp only [BEq.rfl, Option.some.injEq] at h
      simp [h]
    · have hne : (worker == w) = false := beq_false_of_ne hw
      rw [hne] at h
      rw [List.eraseP_cons_of_neg (by simp [hne])]
      exact ((ih h).cons _).trans (List.Perm.swap ..)

theorem Accounts.take (h : Accounts p skipInvalid l done pool) {worker place : ℕ}
    (hstep : pool.take worker place = some pool') : Accounts p skipInvalid l done pool' := by
  unfold Pool.take at hstep
  split_ifs at hstep
  obtain ⟨f, hf, rfl⟩ := Option.map_eq_some_iff.1 hstep
  obtain ⟨hplace, rfl⟩ := List.getElem?_eq_some_iff.1 hf
  refine ⟨List.Perm.trans ?_ h.perm, h.tally, h.faults⟩
  -- The feature moves from those that wait to those that are held.
  simp only [List.append_assoc, List.map_cons, List.cons_append]
  refine List.Perm.append_left done ?_
  exact List.perm_middle.symm.trans
    (List.Perm.append_left _ (List.getElem_cons_eraseIdx_perm hplace))

theorem Accounts.finish (h : Accounts p skipInvalid l done pool) {worker : ℕ}
    (hstep : pool.finish p skipInvalid worker = some pool') :
    ∃ f, Accounts p skipInvalid l (done ++ [f]) pool' := by
  unfold Pool.finish at hstep
  obtain ⟨f, hf, rfl⟩ := Option.map_eq_some_iff.1 hstep
  have hperm : (done ++ [f] ++ (pool.held.eraseP (worker == ·.1)).map (·.2) ++ pool.waiting).Perm
      l := by
    refine List.Perm.trans (List.Perm.append_right _ ?_) h.perm
    rw [List.append_assoc]
    exact List.Perm.append_left done ((perm_eraseP_of_lookup hf).map Prod.snd).symm
  refine ⟨f, ?_⟩
  rw [count_eq]
  cases hfault : fault? skipInvalid (bucket p f) with
  | none =>
    refine ⟨hperm, ?_, fun e => ?_⟩
    · simp [List.filter_append, hfault, tallyOf_concat, ← h.tally]
    · simp [h.faults e, or_and_right, exists_or, hfault]
  | some e =>
    refine ⟨hperm, ?_, fun e' => ?_⟩
    · simp [List.filter_append, hfault, ← h.tally]
    · simp [h.faults e', or_and_right, exists_or, hfault, or_comm, eq_comm]

/-- **One action** keeps the account, with at most one more feature finished. -/
theorem Accounts.step (h : Accounts p skipInvalid l done pool) {a : Action}
    (hstep : pool.step p skipInvalid a = some pool') :
    ∃ done', Accounts p skipInvalid l done' pool' := by
  cases a with
  | take worker place => exact ⟨done, h.take hstep⟩
  | finish worker =>
    obtain ⟨f, hf⟩ := h.finish hstep
    exact ⟨done ++ [f], hf⟩

/-- **A whole schedule** keeps the account. -/
theorem Accounts.run (h : Accounts p skipInvalid l done pool) {schedule : List Action}
    (hrun : pool.run p skipInvalid schedule = some pool') :
    ∃ done', Accounts p skipInvalid l done' pool' := by
  induction schedule generalizing pool done with
  | nil =>
    obtain rfl := Option.some.inj hrun
    exact ⟨done, h⟩
  | cons a schedule ih =>
    obtain ⟨next, hstep, hrest⟩ := Option.bind_eq_some_iff.1 hrun
    obtain ⟨done', h'⟩ := h.step hstep
    exact ih h' hrest

/-! ## The end of a run -/

theorem Accounts.ends_ok (h : Accounts p skipInvalid l done pool) {t : Tally}
    (hend : pool.Ends (.ok t)) :
    (∀ f ∈ l, fault? skipInvalid (bucket p f) = none) ∧ tallyOf p l = t := by
  cases hend with
  | complete hwaiting hheld hfaults =>
    have hperm : done.Perm l := by simpa [hwaiting, hheld] using h.perm
    have hnone : ∀ f ∈ done, fault? skipInvalid (bucket p f) = none := by
      intro f hf
      cases he : fault? skipInvalid (bucket p f) with
      | none => rfl
      | some e =>
        have := (h.faults e).2 ⟨f, hf, he⟩
        simp [hfaults] at this
    have hall : (done.filter fun f => (fault? skipInvalid (bucket p f)).isNone) = done :=
      List.filter_eq_self.2 fun f hf => by rw [hnone f hf]; rfl
    refine ⟨fun f hf => hnone f (hperm.mem_iff.2 hf), ?_⟩
    rw [h.tally, hall, tallyOf_perm p hperm]

theorem Accounts.ends_error (h : Accounts p skipInvalid l done pool) {e : FeatureError}
    (hend : pool.Ends (.error e)) : ∃ f ∈ l, fault? skipInvalid (bucket p f) = some e := by
  cases hend with
  | fault he =>
    obtain ⟨f, hf, hfault⟩ := (h.faults e).1 he
    refine ⟨f, h.perm.mem_iff.1 ?_, hfault⟩
    simp [hf]

/-! ## Every run can be brought to an end -/

theorem exists_finish (p : Partitioner) (skipInvalid : Bool) {worker : ℕ} {f : Feature}
    {rest : List (ℕ × Feature)} (h : pool.held = (worker, f) :: rest) :
    ∃ next, pool.finish p skipInvalid worker = some next ∧ next.waiting = pool.waiting ∧
      next.held = rest := by
  unfold Pool.finish
  rw [h]
  simp only [List.lookup_cons, BEq.rfl, Option.map_some, List.eraseP_cons_of_pos]
  cases count skipInvalid pool.tally (bucket p f) with
  | ok t => exact ⟨_, rfl, rfl, rfl⟩
  | error e => exact ⟨_, rfl, rfl, rfl⟩

theorem exists_take {f : Feature} {rest : List Feature} (hheld : pool.held = [])
    (h : pool.waiting = f :: rest) :
    ∃ next, pool.take 0 0 = some next ∧ next.waiting = rest ∧ next.held = [(0, f)] := by
  unfold Pool.take
  simp [hheld, h]

/-- From every pool there is a schedule after which everything is counted. -/
theorem exists_run (p : Partitioner) (skipInvalid : Bool) (pool : Pool) :
    ∃ schedule next, pool.run p skipInvalid schedule = some next ∧ next.waiting = [] ∧
      next.held = [] := by
  -- Taking a feature and finishing it both bring the pool nearer to its end.
  induction hn : 2 * pool.waiting.length + pool.held.length using Nat.strong_induction_on
    generalizing pool with
  | _ n ih =>
    have hstep : ∀ a next, pool.step p skipInvalid a = some next →
        2 * next.waiting.length + next.held.length < n →
        ∃ schedule last, pool.run p skipInvalid schedule = some last ∧ last.waiting = [] ∧
          last.held = [] := by
      intro a next ha hlt
      obtain ⟨schedule, last, hrun, hlast⟩ := ih _ hlt next rfl
      exact ⟨a :: schedule, last, Option.bind_eq_some_iff.2 ⟨next, ha, hrun⟩, hlast⟩
    cases hheld : pool.held with
    | cons e rest =>
      obtain ⟨next, hnext, hw, hh⟩ := exists_finish p skipInvalid hheld
      refine hstep (.finish e.1) next hnext ?_
      rw [hw, hh, ← hn, hheld, List.length_cons]
      omega
    | nil =>
      cases hwaiting : pool.waiting with
      | nil => exact ⟨[], pool, rfl, hwaiting, hheld⟩
      | cons f rest =>
        obtain ⟨next, hnext, hw, hh⟩ := exists_take hheld hwaiting
        refine hstep (.take 0 0) next hnext ?_
        rw [hw, hh, ← hn, hheld, hwaiting]
        simp only [List.length_cons, List.length_nil]
        omega

end Pool

/-! ## Answers -/

variable {fs : List Feature} {p : Partitioner} {s : Settings}

/-- May `r` be the answer of a run over some features? If they may be filed in any order, the
answer is that of some schedule. -/
def IsAnswer (fs : List Feature) (p : Partitioner) (s : Settings)
    (r : Except FeatureError Tally) : Prop :=
  if s.parallel then
    ∃ schedule pool, (Pool.start (looked fs s)).run p s.skipInvalid schedule = some pool ∧
      pool.Ends r
  else features fs p s = r

section ends

variable {schedule : List Action} {pool : Pool}

theorem features_eq_of_ends_ok {t : Tally}
    (hrun : (Pool.start (looked fs s)).run p s.skipInvalid schedule = some pool)
    (hend : pool.Ends (.ok t)) : features fs p s = .ok t := by
  obtain ⟨done, h⟩ := (Pool.accounts_start (looked fs s)).run hrun
  exact features_eq_ok_iff.2 (h.ends_ok hend)

theorem exists_fault_of_ends_error {e : FeatureError}
    (hrun : (Pool.start (looked fs s)).run p s.skipInvalid schedule = some pool)
    (hend : pool.Ends (.error e)) :
    ∃ f ∈ looked fs s, fault? s.skipInvalid (bucket p f) = some e := by
  obtain ⟨done, h⟩ := (Pool.accounts_start (looked fs s)).run hrun
  exact h.ends_error hend

/-- **Schedule independence.** However the features are spread over workers and whatever order they
are taken and finished in: the run ends with a fault exactly if the run in order does, such a fault
is that of a feature that is looked at and only met if invalid features are not skipped, and a run
that counts everything has the tally of the run in order. -/
theorem schedule_independence {r : Except FeatureError Tally}
    (hrun : (Pool.start (looked fs s)).run p s.skipInvalid schedule = some pool)
    (hend : pool.Ends r) :
    ((∃ e, r = .error e) ↔ ∃ e, features fs p s = .error e) ∧
      (∀ e, r = .error e → s.skipInvalid = false ∧ ∃ f ∈ looked fs s, bucket p f = .error e) ∧
      ∀ t, r = .ok t → features fs p s = .ok t := by
  cases r with
  | ok t =>
    have hok := features_eq_of_ends_ok hrun hend
    refine ⟨by simp [hok], by simp, fun u hu => ?_⟩
    rwa [← hu]
  | error e =>
    obtain ⟨f, hf, hfault⟩ := exists_fault_of_ends_error hrun hend
    refine ⟨iff_of_true ⟨e, rfl⟩ (exists_features_eq_error_iff.2 ⟨f, hf, e, hfault⟩), ?_, by simp⟩
    rintro e' he'
    cases he'
    obtain ⟨hskip, hbucket⟩ := fault?_eq_some_iff.1 hfault
    exact ⟨hskip, f, hf, hbucket⟩

/-- A feature with a place, one outside the globe, and one without a geometry. -/
def threeFeatures : List Feature :=
  [⟨some (.point [.ofNat 5, .ofNat 15])⟩, ⟨some (.point [.ofNat 200, .ofNat 15])⟩, ⟨none⟩]

/-- Two workers: the first meets the feature outside the globe while the second still holds the
feature with a place, and takes the last feature before the second is done. -/
def twoWorkers : List Action := [.take 1 1, .take 2 0, .finish 1, .take 1 0, .finish 2, .finish 1]

/-- The pool over the three features after the first `n` actions. -/
def poolAfter (n : ℕ) (s : Settings) : Option Pool :=
  (Pool.start (looked threeFeatures s)).run ⟨2, by decide, by decide⟩ s.skipInvalid
    (twoWorkers.take n)

set_option maxRecDepth 2000 in
theorem schedule_independence_twoWorkers :
    (∃ pool e, poolAfter 3 { skipInvalid := false } = some pool ∧ pool.Ends (.error e) ∧
      ∃ e', features threeFeatures ⟨2, by decide, by decide⟩ { skipInvalid := false } =
        .error e') ∧
    ∃ pool, poolAfter 6 {} = some pool ∧ pool.Ends (.ok pool.tally) ∧
      features threeFeatures ⟨2, by decide, by decide⟩ {} = .ok pool.tally := by
  constructor
  · obtain ⟨pool, hrun, hfault⟩ := (Option.any_eq_true _ _).1 (show
      (poolAfter 3 { skipInvalid := false }).any
        (.coordinate (.outside .longitude (.ofNat 200)) ∈ ·.faults) from by decide)
    have hend : pool.Ends _ := .fault (of_decide_eq_true hfault)
    exact ⟨pool, _, hrun, hend, (schedule_independence hrun hend).1.1 ⟨_, rfl⟩⟩
  · obtain ⟨pool, hrun, hdone⟩ := (Option.any_eq_true _ _).1 (show
      (poolAfter 6 {}).any (fun pool =>
        pool.waiting.isEmpty && pool.held.isEmpty && pool.faults.isEmpty) from by decide)
    simp only [Bool.and_eq_true, List.isEmpty_iff] at hdone
    have hend := Pool.Ends.complete hdone.1.1 hdone.1.2 hdone.2
    exact ⟨pool, hrun, hend, (schedule_independence hrun hend).2.2 _ rfl⟩

end ends

/-- There is a schedule after which every feature is finished. -/
theorem exists_complete_run (p : Partitioner) (skipInvalid : Bool) (l : List Feature) :
    ∃ schedule pool done, (Pool.start l).run p skipInvalid schedule = some pool ∧
      pool.waiting = [] ∧ pool.held = [] ∧ done.Perm l ∧
      Pool.Accounts p skipInvalid l done pool := by
  obtain ⟨schedule, pool, hrun, hwaiting, hheld⟩ := Pool.exists_run p skipInvalid (Pool.start l)
  obtain ⟨done, h⟩ := (Pool.accounts_start l).run hrun
  exact ⟨schedule, pool, done, hrun, hwaiting, hheld, by simpa [hwaiting, hheld] using h.perm, h⟩

/-- The workers may end with the fault of any feature looked at, and with no other. -/
theorem isAnswer_error_iff (hs : s.parallel = true) {e : FeatureError} :
    IsAnswer fs p s (.error e) ↔
      ∃ f ∈ looked fs s, fault? s.skipInvalid (bucket p f) = some e := by
  rw [IsAnswer, if_pos hs]
  constructor
  · rintro ⟨schedule, pool, hrun, hend⟩
    exact exists_fault_of_ends_error hrun hend
  · rintro ⟨f, hf, hfault⟩
    obtain ⟨schedule, pool, done, hrun, -, -, hperm, h⟩ :=
      exists_complete_run p s.skipInvalid (looked fs s)
    exact ⟨schedule, pool, hrun, .fault ((h.faults e).2 ⟨f, hperm.mem_iff.2 hf, hfault⟩)⟩

/-- The run in order gives an answer that the workers may give too. -/
theorem isAnswer_features (fs : List Feature) (p : Partitioner) (s : Settings) :
    IsAnswer fs p s (features fs p s) := by
  by_cases hs : s.parallel = true
  · cases hfs : features fs p s with
    | error e => exact (isAnswer_error_iff hs).2 (exists_fault_of_features_eq_error hfs)
    | ok t =>
      obtain ⟨hnone, -⟩ := features_eq_ok_iff.1 hfs
      obtain ⟨schedule, pool, done, hrun, hwaiting, hheld, hperm, h⟩ :=
        exists_complete_run p s.skipInvalid (looked fs s)
      have hfaults : pool.faults = [] := by
        rw [List.eq_nil_iff_forall_not_mem]
        intro e he
        obtain ⟨f, hf, hfault⟩ := (h.faults e).1 he
        rw [hnone f (hperm.mem_iff.1 hf)] at hfault
        cases hfault
      have hend := Pool.Ends.complete hwaiting hheld hfaults
      obtain rfl : pool.tally = t :=
        Except.ok.inj ((features_eq_of_ends_ok hrun hend).symm.trans hfs)
      rw [IsAnswer, if_pos hs]
      exact ⟨schedule, pool, hrun, hend⟩
  · rw [IsAnswer, if_neg hs]

/-- Every answer with a tally is that of the run in order. -/
theorem isAnswer_ok_iff {t : Tally} : IsAnswer fs p s (.ok t) ↔ features fs p s = .ok t := by
  refine ⟨fun h => ?_, fun h => h ▸ isAnswer_features fs p s⟩
  unfold IsAnswer at h
  split_ifs at h
  · obtain ⟨schedule, pool, hrun, hend⟩ := h
    exact features_eq_of_ends_ok hrun hend
  · exact h

end GeoPartition.Ingest
