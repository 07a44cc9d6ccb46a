import GeoPartition.Proofs.Toml.Layout
import GeoPartition.Proofs.Toml.Path

/-!
# Lines that go together

A line of a document defines a table, one more item in an array of tables, or a member of the table
that was opened last. Whether it may stand where it does depends on the lines before it: nothing is
defined twice, no table is both an array and not one, and dotted keys add to no table that a header
names (`Fact.Before`). A new item of an array begins with nothing, and what the last one held is of
no more account (`Follows.item`).

**Theorem (`Follows.run`).** Lines of which each may stand behind the others are all taken in.

The lines so far permit what they leave undefined, and the arrays among them are there (`Permits`).
Every line keeps this, so the theorem is an induction on the lines.
-/

namespace GeoPartition.Toml

open Entries (Frame Reach CanOpen CanAdd HasItems Needs Passes)

/-! ## What lines define -/

/-- What a line defines: a table, an item in an array of tables, or a member of a table. -/
inductive Fact
  | table (path : List String)
  | item (path : List String)
  | member (table key : List String)
deriving DecidableEq

namespace Fact

/-- The table that a line opens, or stands in. -/
def home : Fact → List String
  | table r | item r | member r _ => r

def path : Fact → List String
  | table r | item r => r
  | member r key => r ++ key

/-- A member is no table, and what dotted keys make on the way to it is not defined again. -/
def Leaves : Fact → List String → Prop
  | member r key, q => ¬ r ++ key <+: q ∧ (q <+: r ++ key → q <+: r)
  | table _, _ | item _, _ => True

/-- Something can be defined after something else. -/
def Before (f g : Fact) : Prop := f.Leaves g.path ∧
  match g with
  | table q => q ≠ f.home
  | item q => f = item q ∨ ¬ q <+: f.home
  | member q key => ¬ q ++ key.take 1 <+: f.home

instance : DecidableRel Leaves
  | member _ _, _ => inferInstanceAs (Decidable (_ ∧ (_ → _)))
  | table _, _ | item _, _ => inferInstanceAs (Decidable True)

instance : DecidableRel Before
  | _, table _ => inferInstanceAs (Decidable (_ ∧ _ ≠ _))
  | _, item _ => inferInstanceAs (Decidable (_ ∧ (_ ∨ ¬ _)))
  | _, member _ _ => inferInstanceAs (Decidable (_ ∧ ¬ _))

end Fact

/-- Lines can follow what has been defined, of which the items of arrays forget what the items
before them held. -/
inductive Follows : List Fact → List String → List Line → Prop
  | nil {F : List Fact} {c : List String} : Follows F c []
  | header {F : List Fact} {c r : List String} {ls : List Line} (hne : r ≠ [])
      (hr : r.length ≤ maxDepth) (hF : ∀ f ∈ F, f.Before (.table r))
      (h : Follows (.table r :: F) r ls) : Follows F c (.header r :: ls)
  | item {F : List Fact} {c r : List String} {ls : List Line} (hne : r ≠ [])
      (hr : r.length ≤ maxDepth) (hF : .item r ∈ F ∨ ∀ f ∈ F, f.Before (.item r))
      (h : Follows (.item r :: F.filter fun f => ¬ r <+: f.home) r ls) :
      Follows F c (.item r :: ls)
  | entry {F : List Fact} {c key : List String} {t : List Char} {ls : List Line} (hne : key ≠ [])
      (hkey : key.length ≤ maxDepth) (ht : IsValue maxDepth t)
      (hF : ∀ f ∈ F, f.Before (.member c key)) (h : Follows (.member c key :: F) c ls) :
      Follows F c (.entry key t :: ls)

/-! ## What is permitted -/

/-- Something can be defined, if it is anything at all. -/
def Fact.Allowed : Fact → Entries → Prop
  | table r, es => ∀ p n, r = p ++ [n] → Reach True (CanOpen n) p es
  | item r, es => ∀ p n, r = p ++ [n] → Reach True (CanAdd n) p es
  | member c key, es => key ≠ [] → Reach True (IsFree key) c es

/-- The entries that were made permit what has not been defined, and the arrays of tables are
there. -/
structure Permits (F : List Fact) (es : Entries) : Prop where
  allowed : ∀ g : Fact, (∀ f ∈ F, f.Before g) → g.Allowed es
  items : ∀ q n, .item (q ++ [n]) ∈ F → Reach False (HasItems n) q es

theorem canOpen_nil (n : String) : CanOpen n [] := ⟨Nat.zero_le 1, .inl List.lookup_nil⟩

theorem canAdd_nil (n : String) : CanAdd n [] := .inl List.lookup_nil

theorem permits_nil : Permits [] [] where
  allowed := fun g _ => by
    cases g with
    | table r => exact fun p n _ => Entries.reach_nil trivial (canOpen_nil n) p
    | item r => exact fun p n _ => Entries.reach_nil trivial (canAdd_nil n) p
    | member c key => exact fun hkey => Entries.reach_nil trivial (isFree_nil hkey) c
  items := nofun

section

variable {p : List String} {k : String} {es es' : Entries} {g : Fact}

/-! ## Headers -/

/-- After a header, all can be defined that may stand behind it. -/
theorem Fact.Allowed.openTable (hg : g.Allowed es) (hp : Reach True (CanOpen k) p es)
    (hw : es.within p (·.openTable k) = some es') (hbefore : (Fact.table (p ++ [k])).Before g) :
    g.Allowed es' := by
  cases g with
  | table r =>
    rintro q n rfl
    exact (hg q n rfl).openTable hp hw (Entries.needs_canOpen n) hbefore.2
      fun _ => Entries.passes_canOpen n
  | item r =>
    rintro q n rfl
    have hnot : ¬ q ++ [n] <+: p ++ [k] := hbefore.2.resolve_left (by simp)
    exact (hg q n rfl).openTable hp hw (Entries.needs_canAdd n)
      (fun h => hnot (h ▸ List.prefix_rfl))
      fun h => absurd (h.trans (List.prefix_append p [k])) hnot
  | member c key =>
    intro hkey
    obtain ⟨n, key, rfl⟩ := List.exists_cons_of_ne_nil hkey
    have hnot : ¬ c ++ [n] <+: p ++ [k] := hbefore.2
    exact (hg hkey).openTable hp hw (Entries.needs_isFree n key)
      (fun h => hnot (h ▸ List.prefix_rfl))
      fun h => absurd (h.trans (List.prefix_append p [k])) hnot

theorem Permits.header {F : List Fact} (h : Permits F es) (hp : Reach True (CanOpen k) p es)
    (hw : es.within p (·.openTable k) = some es') (hF : ∀ f ∈ F, f.Before (.table (p ++ [k]))) :
    Permits (.table (p ++ [k]) :: F) es' where
  allowed := fun g hg => by
    obtain ⟨hfirst, hrest⟩ := List.forall_mem_cons.1 hg
    exact (h.allowed g hrest).openTable hp hw hfirst
  items := fun q n hmem => by
    have hitem : .item (q ++ [n]) ∈ F := by simpa using hmem
    exact (h.items q n hitem).openTable hp hw (Entries.needs_hasItems n)
      (Ne.symm (hF _ hitem).2) fun _ => Entries.passes_hasItems n

/-! ## Items -/

theorem Fact.leaves_of_home {r q : List String} {f : Fact} (hf : r <+: f.home) (h : ¬ r <+: q) :
    f.Leaves q := by
  cases f with
  | table _ | item _ => trivial
  | member c key =>
    have hpath : r <+: c ++ key := hf.trans (List.prefix_append c key)
    refine ⟨fun hq => h (hpath.trans hq), fun hq => ?_⟩
    exact ((List.prefix_or_prefix_of_prefix hq hpath).resolve_right h).trans hf

/-- What may stand behind an item and is no part of it may stand behind all that the items before it
held. -/
theorem Fact.Before.of_item {r : List String} {f : Fact} (hf : r <+: f.home)
    (hbefore : (Fact.item r).Before g) (hout : ¬ r <+: g.home) : f.Before g := by
  cases g with
  | table q =>
    refine ⟨leaves_of_home hf hout, ?_⟩
    rintro rfl
    exact hout hf
  | item q =>
    have hnot : ¬ q <+: r := by
      refine hbefore.2.resolve_left fun h => hout ?_
      obtain rfl := Fact.item.inj h
      exact List.prefix_rfl
    refine ⟨leaves_of_home hf hout, .inr fun hq => ?_⟩
    exact (List.prefix_or_prefix_of_prefix hq hf).elim hnot hout
  | member c key =>
    have hnot : ¬ c ++ key.take 1 <+: r := hbefore.2
    have hentry : ¬ r <+: c ++ key.take 1 := by
      intro h
      cases key with
      | nil => exact hout (List.append_nil c ▸ h)
      | cons n key =>
        exact (List.prefix_concat_iff.1 h).elim (fun h => hnot (h ▸ List.prefix_rfl)) hout
    have hpath : ¬ r <+: c ++ key := by
      intro h
      have hfirst : c ++ key.take 1 <+: c ++ key :=
        (List.prefix_append_right_inj c).2 (List.take_prefix 1 key)
      exact (List.prefix_or_prefix_of_prefix hfirst h).elim hnot hentry
    refine ⟨leaves_of_home hf hpath, fun hq => ?_⟩
    exact (List.prefix_or_prefix_of_prefix hq hf).elim hnot hentry

/-- After a new item of an array, all can be defined that may stand behind it. -/
theorem Fact.Allowed.openItem (hg : g.Allowed es) (hp : Reach True (CanAdd k) p es)
    (hw : es.within p (·.openItem k) = some es') (hbefore : (Fact.item (p ++ [k])).Before g)
    (hout : ¬ p ++ [k] <+: g.home) : g.Allowed es' := by
  cases g with
  | table r =>
    rintro q n rfl
    exact (hg q n rfl).openItem hp hw (Entries.needs_canOpen n)
      (fun h => absurd h hbefore.2) (fun h => hout (h.trans (List.prefix_append q [n])))
      fun _ => Entries.passes_canOpen n
  | item r =>
    rintro q n rfl
    have hne : q ++ [n] ≠ p ++ [k] := fun h => hout (h ▸ List.prefix_rfl)
    have hnot : ¬ q ++ [n] <+: p ++ [k] :=
      hbefore.2.resolve_left fun h => hne (Fact.item.inj h).symm
    exact (hg q n rfl).openItem hp hw (Entries.needs_canAdd n) (fun h => absurd h hne)
      (fun h => hout (h.trans (List.prefix_append q [n])))
      fun h => absurd (h.trans (List.prefix_append p [k])) hnot
  | member c key =>
    intro hkey
    obtain ⟨n, key, rfl⟩ := List.exists_cons_of_ne_nil hkey
    have hnot : ¬ c ++ [n] <+: p ++ [k] := hbefore.2
    exact (hg hkey).openItem hp hw (Entries.needs_isFree n key)
      (fun h => absurd (h ▸ List.prefix_rfl) hnot) hout
      fun h => absurd (h.trans (List.prefix_append p [k])) hnot

/-- In a new item of an array, all can be defined. -/
theorem allowed_openItem (hw : es.within p (·.openItem k) = some es') (hg : g ≠ .table (p ++ [k]))
    (hin : p ++ [k] <+: g.home) : g.Allowed es' := by
  have hinner {q : List String} {n : String} (hq : p ++ [k] <+: q ++ [n])
      (hne : p ++ [k] ≠ q ++ [n]) : p ++ [k] <+: q :=
    (List.prefix_concat_iff.1 hq).resolve_left hne
  cases g with
  | table r =>
    rintro q n rfl
    exact Entries.reach_openItem hw (canOpen_nil n)
      (hinner hin fun h => hg (congrArg Fact.table h.symm))
  | item r =>
    rintro q n rfl
    by_cases hsame : p ++ [k] = q ++ [n]
    · obtain ⟨rfl, rfl⟩ := List.append_singleton_inj.1 hsame
      exact (Entries.reach_hasItems hw).mono (fun h => h.elim) fun _ h => .inr h
    · exact Entries.reach_openItem hw (canAdd_nil n) (hinner hin hsame)
  | member c key => exact fun hkey => Entries.reach_openItem hw (isFree_nil hkey) hin

theorem Permits.item {F : List Fact} (h : Permits F es) (hp : Reach True (CanAdd k) p es)
    (hw : es.within p (·.openItem k) = some es') :
    Permits (.item (p ++ [k]) :: F.filter fun f => ¬ p ++ [k] <+: f.home) es' where
  allowed := fun g hg => by
    obtain ⟨hfirst, hrest⟩ := List.forall_mem_cons.1 hg
    by_cases hin : p ++ [k] <+: g.home
    · refine allowed_openItem hw ?_ hin
      rintro rfl
      exact hfirst.2 rfl
    · have hall : ∀ f ∈ F, f.Before g := by
        intro f hf
        by_cases hhome : p ++ [k] <+: f.home
        · exact .of_item hhome hfirst hin
        · exact hrest f (by simpa [hf] using hhome)
      exact (h.allowed g hall).openItem hp hw hfirst hin
  items := fun q n hmem => by
    rcases List.mem_cons.1 hmem with heq | hmem
    · obtain ⟨rfl, rfl⟩ := List.append_singleton_inj.1 (Fact.item.inj heq)
      exact Entries.reach_hasItems hw
    · obtain ⟨hitem, hhome⟩ := List.mem_filter.1 hmem
      have hout : ¬ p ++ [k] <+: q ++ [n] := of_decide_eq_true hhome
      exact (h.items q n hitem).openItem hp hw (Entries.needs_hasItems n)
        (fun h => absurd (h ▸ List.prefix_rfl) hout)
        (fun h => hout (h.trans (List.prefix_append q [n]))) fun _ => Entries.passes_hasItems n

/-! ## Members -/

theorem not_append_prefix {c q s : List String} (hs : s ≠ []) (h : c <+: q) : ¬ q ++ s <+: c := by
  intro hq
  have hlength := hq.length_le
  rw [List.length_append] at hlength
  have hpos := List.length_pos_of_ne_nil hs
  have := h.length_le
  omega

/-- On the way to a member, an entry is touched only if its name is part of the key. -/
theorem needs_assign {n key : String} {Q : Entries → Prop} (hQ : Needs n Q) {l q path : List String}
    (hl : l = q ++ (path ++ [key])) (hout : ¬ q ++ [n] <+: l) {v : Value} {sub sub' : Entries}
    (hfree : IsFree (path ++ [key]) sub) (ha : Entries.assign path key v sub = some sub') :
    Q sub → Q sub' := by
  refine hQ _ ?_ sub sub' (Entries.frame_assign hfree ha)
  rintro rfl
  refine hout (hl ▸ (List.prefix_append_right_inj q).2 ?_)
  cases path <;> simp

/-- After a member, all can be defined that may stand behind it. -/
theorem Fact.Allowed.member {c path : List String} {key : String} {v : Value} (hg : g.Allowed es)
    (hp : Reach True (IsFree (path ++ [key])) c es)
    (hw : es.within c (·.assign path key v) = some es')
    (hbefore : (Fact.member c (path ++ [key])).Before g) : g.Allowed es' := by
  obtain ⟨⟨hvalue, hway⟩, hrest⟩ := hbefore
  cases g with
  | table r =>
    rintro q n rfl
    have hn := Entries.needs_canOpen n
    exact (hg q n rfl).member hp hw hn (fun h => hvalue (h.trans (List.prefix_append q [n])))
      (fun path' hpath hcq sub sub' => needs_assign hn hpath fun h =>
        not_append_prefix (List.cons_ne_nil n []) hcq (hway h)) fun _ => Entries.passes_canOpen n
  | item r =>
    rintro q n rfl
    have hn := Entries.needs_canAdd n
    have hnot : ¬ q ++ [n] <+: c := hrest.resolve_left nofun
    exact (hg q n rfl).member hp hw hn (fun h => hvalue (h.trans (List.prefix_append q [n])))
      (fun path' hpath hcq sub sub' => needs_assign hn hpath fun h =>
        not_append_prefix (List.cons_ne_nil n []) hcq (hway h)) fun h => absurd h hnot
  | member c' key' =>
    intro hkey
    obtain ⟨n, key', rfl⟩ := List.exists_cons_of_ne_nil hkey
    refine (hg hkey).member hp hw (Entries.needs_isFree n key')
      (fun h => hvalue (h.trans (List.prefix_append c' _)))
      (fun path' hpath hcq sub sub' hfree ha => ?_) fun h => absurd h hrest
    obtain ⟨sub'', ha', hothers, -⟩ := hfree.assign v
    obtain rfl := Option.some.inj (ha.symm.trans ha')
    refine hothers _ ⟨fun h => hvalue ?_, fun h => not_append_prefix hkey hcq (hway ?_)⟩
    · rw [hpath]
      exact (List.prefix_append_right_inj c').2 h
    · rw [hpath]
      exact (List.prefix_append_right_inj c').2 h

theorem Permits.member {F : List Fact} (h : Permits F es) {c path : List String} {key : String}
    {v : Value} (hp : Reach True (IsFree (path ++ [key])) c es)
    (hw : es.within c (·.assign path key v) = some es')
    (hF : ∀ f ∈ F, f.Before (.member c (path ++ [key]))) :
    Permits (.member c (path ++ [key]) :: F) es' where
  allowed := fun g hg => by
    obtain ⟨hfirst, hrest⟩ := List.forall_mem_cons.1 hg
    exact (h.allowed g hrest).member hp hw hfirst
  items := fun q n hmem => by
    have hitem : .item (q ++ [n]) ∈ F := by simpa using hmem
    have hnot : ¬ c ++ (path ++ [key]).take 1 <+: q ++ [n] := (hF _ hitem).2
    have hfirst : c ++ (path ++ [key]).take 1 <+: c ++ (path ++ [key]) :=
      (List.prefix_append_right_inj c).2 (List.take_prefix 1 _)
    have hn := Entries.needs_hasItems n
    refine (h.items q n hitem).member hp hw hn
      (fun h => hnot ((hfirst.trans h).trans (List.prefix_append q [n])))
      (fun path' hpath hcq sub sub' => needs_assign hn hpath fun h => hnot ?_)
      fun _ => Entries.passes_hasItems n
    refine List.prefix_of_prefix_length_le hfirst h ?_
    have hlength := hcq.length_le
    simp only [List.length_append, List.length_take, List.length_singleton]
    omega

end

/-! ## Lines -/

/-- Does a line open a table? -/
def Line.Opens : Line → Prop
  | header _ | item _ => True
  | entry _ _ => False

section

variable (value : List Char → Value) {F : List Fact} {c : List String} {es : Entries}

theorem Permits.step_header (h : Permits F es) {r : List String} (hne : r ≠ [])
    (hF : ∀ f ∈ F, f.Before (.table r)) : ∃ es', Progress.step ⟨es, c⟩ (.header r) = some ⟨es', r⟩ ∧
      Permits (.table r :: F) es' ∧ Frame [first r] es es' := by
  obtain ⟨p, k, rfl⟩ := (List.eq_nil_or_concat' r).resolve_left hne
  have hp : Reach True (CanOpen k) p es := h.allowed _ hF p k rfl
  obtain ⟨es', hw⟩ : ∃ es', es.within p (·.openTable k) = some es' :=
    hp.exists_within fun _ h => h.exists_openTable
  refine ⟨es', ?_, h.header hp hw hF, Entries.frame_within hw fun _ _ => Entries.frame_openTable⟩
  simp [Progress.step, splitKey_append, hw]

theorem Permits.step_item (h : Permits F es) {r : List String} (hne : r ≠ [])
    (hF : .item r ∈ F ∨ ∀ f ∈ F, f.Before (.item r)) :
    ∃ es', Progress.step ⟨es, c⟩ (.itemHeader r) = some ⟨es', r⟩ ∧
      Permits (.item r :: F.filter fun f => ¬ r <+: f.home) es' ∧ Frame [first r] es es' := by
  obtain ⟨p, k, rfl⟩ := (List.eq_nil_or_concat' r).resolve_left hne
  have hp : Reach True (CanAdd k) p es := by
    rcases hF with hF | hF
    · exact (h.items p k hF).mono (fun h => h.elim) fun _ h => .inr h
    · exact h.allowed _ hF p k rfl
  obtain ⟨es', hw⟩ : ∃ es', es.within p (·.openItem k) = some es' :=
    hp.exists_within fun _ h => h.exists_openItem
  refine ⟨es', ?_, h.item hp hw,
    Entries.frame_within hw fun _ _ ho => (Entries.frame_openItem ho).1⟩
  simp [Progress.step, splitKey_append, hw]

theorem Permits.step_entry (h : Permits F es) {path : List String} {key : String} (v : Value)
    (hF : ∀ f ∈ F, f.Before (.member c (path ++ [key]))) :
    ∃ es', Progress.step ⟨es, c⟩ (.assignment (path ++ [key]) v) = some ⟨es', c⟩ ∧
      Permits (.member c (path ++ [key]) :: F) es' ∧
      es.within c (·.assign path key v) = some es' := by
  have hp : Reach True (IsFree (path ++ [key])) c es := h.allowed _ hF (by simp)
  obtain ⟨es', hw⟩ : ∃ es', es.within c (·.assign path key v) = some es' :=
    hp.exists_within fun _ h => (h.assign v).imp fun _ h => h.1
  exact ⟨es', by simp [Progress.step, splitKey_append, hw], h.member hp hw hF, hw⟩

/-- Lines are taken in, and leave the entries as they are whose name no table has that is open or
that they open. -/
def Runs (es : Entries) (c : List String) (ls : List Line) : Prop :=
  ∃ b, (ls.map (Line.statement value)).foldlM Progress.step ⟨es, c⟩ = some b ∧
    ∀ P : String → Bool, (c ≠ [] → P (first c) = false) →
      (∀ l ∈ ls, l.Opens → P (first l.key) = false) →
      b.entries.filter (fun e => P e.1) = es.filter fun e => P e.1

theorem Runs.opened {es₁ : Entries} {l : Line} {ls : List Line} (hl : l.Opens)
    (hstep : Progress.step ⟨es, c⟩ (l.statement value) = some ⟨es₁, l.key⟩)
    (hframe : Frame [first l.key] es es₁) (h : Runs value es₁ l.key ls) :
    Runs value es c (l :: ls) := by
  obtain ⟨b, hrun, hrest⟩ := h
  refine ⟨b, by simp [hstep, hrun], fun P _ hP => ?_⟩
  obtain ⟨hfirst, hP⟩ := List.forall_mem_cons.1 hP
  have hkey : P (first l.key) = false := hfirst hl
  rw [hrest P (fun _ => hkey) hP, hframe P (by simpa using hkey)]

theorem Runs.entered {es₁ : Entries} {key : List String} {t : List Char} {ls : List Line}
    (hstep : Progress.step ⟨es, c⟩ (.assignment key (value t)) = some ⟨es₁, c⟩)
    (hframe : Frame [first c] es es₁) (hc : c ≠ []) (h : Runs value es₁ c ls) :
    Runs value es c (.entry key t :: ls) := by
  obtain ⟨b, hrun, hrest⟩ := h
  refine ⟨b, by simp [Line.statement, hstep, hrun], fun P hP hP' => ?_⟩
  obtain ⟨-, hP'⟩ := List.forall_mem_cons.1 hP'
  rw [hrest P hP hP', hframe P (by simpa using hP hc)]

/-- **Lines are taken in** one after the other, if each may stand behind those before it and the
first opens a table. -/
theorem Follows.run {ls : List Line} (h : Follows F c ls) (hes : Permits F es)
    (hls : c = [] → ∀ l ∈ ls.head?, l.Opens) : Runs value es c ls := by
  induction h generalizing es with
  | nil => exact ⟨_, rfl, fun _ _ _ => rfl⟩
  | header hne _ hF _ ih =>
    obtain ⟨es₁, hstep, hpermits, hframe⟩ := hes.step_header hne hF
    exact .opened value trivial hstep hframe (ih hpermits fun h => absurd h hne)
  | item hne _ hF _ ih =>
    obtain ⟨es₁, hstep, hpermits, hframe⟩ := hes.step_item hne hF
    exact .opened value trivial hstep hframe (ih hpermits fun h => absurd h hne)
  | @entry F c key t ls hne _ _ hF _ ih =>
    obtain ⟨path, key, rfl⟩ := (List.eq_nil_or_concat' key).resolve_left hne
    have hc : c ≠ [] := fun hc => hls hc _ rfl
    obtain ⟨es₁, hstep, hpermits, hw⟩ := hes.step_entry (value t) hF
    obtain ⟨k, c, rfl⟩ := List.exists_cons_of_ne_nil hc
    obtain ⟨-, -, -, -, hframe, -⟩ := Entries.within_cons hw
    exact .entered value hstep hframe hc (ih hpermits fun h => absurd h hc)

/-- **Members of the outermost table** are entries in their order, as far as their keys have one
part. -/
theorem Follows.members {ms : List (List String × List Char)} {ls : List Line}
    (h : Follows F [] (ms.map (fun m => .entry m.1 m.2) ++ ls)) (hes : Permits F es) :
    ∃ F' es', Follows F' [] ls ∧ Permits F' es' ∧
      (ms.map fun m => Statement.assignment m.1 (value m.2)).foldlM Progress.step ⟨es, []⟩ =
        some ⟨es', []⟩ ∧
      ∀ P : String → Bool, (∀ m ∈ ms, P (first m.1) → m.1 = [first m.1]) →
        es'.filter (fun e => P e.1) = es.filter (fun e => P e.1) ++
          (ms.filter fun m => P (first m.1)).map fun m => (first m.1, .value (value m.2)) := by
  induction ms generalizing F es with
  | nil => exact ⟨F, es, h, hes, rfl, fun P _ => by simp⟩
  | cons m ms ih =>
    obtain ⟨key, t⟩ := m
    cases h with
    | entry hne _ _ hF hrest =>
      obtain ⟨path, last, rfl⟩ := (List.eq_nil_or_concat' key).resolve_left hne
      obtain ⟨es₁, hstep, hpermits, hassign⟩ := hes.step_entry (value t) hF
      obtain ⟨F', es', hfollows, hpermits', hrun, hfilter⟩ := ih hrest hpermits
      refine ⟨F', es', hfollows, hpermits', by simp [hstep, hrun], fun P hP => ?_⟩
      obtain ⟨hfirst, hP⟩ := List.forall_mem_cons.1 hP
      have hpath : P (first (path ++ [last])) → path = [] := by
        intro h
        simpa using congrArg List.length (hfirst h)
      have hfree : IsFree (path ++ [last]) es := by
        cases hes.allowed _ hF (by simp) with
        | here h => exact h
      rw [hfilter P hP, filter_assign hassign (Entries.frame_assign hfree hassign) hpath]
      by_cases hname : P (first (path ++ [last]))
      · obtain rfl := hpath hname
        have hlast : P last := hname
        simp [hlast]
      · simp [hname]

end

/-! ## Documents -/

/-- There is one way to read every value that can be read. -/
theorem exists_value : ∃ value : List Char → Value,
    ∀ t, IsValue maxDepth t → Spells maxDepth t (value t) := by
  have hread : ∀ t, ∃ v, IsValue maxDepth t → Spells maxDepth t v := by
    intro t
    by_cases ht : IsValue maxDepth t
    · obtain ⟨v, hv⟩ := ht.spells
      exact ⟨v, fun _ => hv⟩
    · exact ⟨.dateTime, fun h => absurd h ht⟩
  choose value hvalue using hread
  exact ⟨value, hvalue⟩

theorem Follows.isRead {value : List Char → Value}
    (hvalue : ∀ t, IsValue maxDepth t → Spells maxDepth t (value t)) {F : List Fact}
    {c : List String} {ls : List Line} (h : Follows F c ls) : ∀ l ∈ ls, l.IsRead value := by
  induction h with
  | nil => nofun
  | header _ hr _ _ ih | item _ hr _ _ ih => exact List.forall_mem_cons.2 ⟨⟨hr, nofun⟩, ih⟩
  | entry _ hkey ht _ _ ih =>
    refine List.forall_mem_cons.2 ⟨⟨hkey, ?_⟩, ih⟩
    rintro _ _ ⟨⟩
    exact hvalue _ ht

/-- Members of which no key leads to another can stand together. -/
theorem follows_members {ms : List (List String × List Char)} (hkeys : AreKeys (ms.map Prod.fst))
    (hvalues : ∀ m ∈ ms, IsValue maxDepth m.2) {F : List Fact}
    (hF : ∀ m ∈ ms, ∀ f ∈ F, f.Before (.member [] m.1)) :
    Follows F [] (ms.map fun m => .entry m.1 m.2) := by
  induction ms generalizing F with
  | nil => exact .nil
  | cons m ms ih =>
    obtain ⟨key, t⟩ := m
    obtain ⟨hvalue, hvalues⟩ := List.forall_mem_cons.1 hvalues
    obtain ⟨hfirst, hF⟩ := List.forall_mem_cons.1 hF
    refine .entry (hkeys.ne_nil _ List.mem_cons_self) (hkeys.short _ List.mem_cons_self) hvalue
      hfirst (ih hkeys.tail hvalues fun m hm => List.forall_mem_cons.2 ⟨?_, hF m hm⟩)
    have hapart : Apart key m.1 := List.rel_of_pairwise_cons hkeys.apart (List.mem_map_of_mem hm)
    have hfirst : ¬ [] ++ m.1.take 1 <+: [] := by simpa using hapart.ne_nil
    exact ⟨⟨hapart.1, fun h => absurd h hapart.2⟩, hfirst⟩

theorem toValues_eq_map (es : Entries) :
    Node.toValues es = es.map fun e => (e.1, e.2.toValue) := by
  induction es with
  | nil => rfl
  | cons e es ih => rw [Node.toValues, ih, List.map_cons]

/-- A document of some members, with further lines behind the first header. -/
structure HasMembers (s : List Char) (ms : List (List String × List Char)) (ls : List Line) :
    Prop where
  document : IsDocument s (ms.map (fun m => .entry m.1 m.2) ++ ls)
  follows : Follows [] [] (ms.map (fun m => .entry m.1 m.2) ++ ls)
  opens : ∀ l ∈ ls.head?, l.Opens

/-- **Documents are read**, and their members are among the entries. -/
theorem HasMembers.ofText? {s : List Char} {ms : List (List String × List Char)} {ls : List Line}
    (h : HasMembers s ms ls) : ∃ value : List Char → Value,
      (∀ m ∈ ms, Spells maxDepth m.2 (value m.2)) ∧
      ∃ entries, Toml.ofText? s = some entries ∧
        ∀ P : String → Bool, (∀ l ∈ ls, l.Opens → P (first l.key) = false) →
          (∀ m ∈ ms, P (first m.1) → m.1 = [first m.1]) →
          entries.filter (fun e => P e.1) =
            (ms.filter fun m => P (first m.1)).map fun m => (first m.1, value m.2) := by
  obtain ⟨value, hvalue⟩ := exists_value
  have hread := h.follows.isRead hvalue
  obtain ⟨F, es, hfollows, hpermits, hmembers, hfilter⟩ := h.follows.members value permits_nil
  obtain ⟨b, hrun, hrest⟩ := hfollows.run value hpermits fun _ => h.opens
  refine ⟨value, fun m hm => ?_, Node.toValues b.entries, ?_, fun P hls hms => ?_⟩
  · exact (hread _ (List.mem_append_left _ (List.mem_map_of_mem hm))).spells _ _ rfl
  · rw [h.document.ofText? hread, List.map_append, List.map_map, List.foldlM_append]
    simp [Function.comp_def, Line.statement, hmembers, hrun]
  · rw [toValues_eq_map, List.filter_map]
    simp [Function.comp_def, hrest P (by simp) hls, hfilter P hms, Node.toValue]

end GeoPartition.Toml
