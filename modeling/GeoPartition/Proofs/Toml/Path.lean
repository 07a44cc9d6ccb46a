import GeoPartition.Proofs.Toml.Table

/-!
# Ways through tables

A path leads through tables, through the last table of an array, and through tables that are made
when they are needed (`Reach`). What is done at the end of one path is seen from another
(`Reach.within`): nothing changes where the two part, and where one goes on, only the entry on which
it does.

Each operation at the end of a path changes one entry there and keeps what can be reached through it
(`Reach.openTable`, `Reach.assign`); only a new item of an array begins with nothing.
-/

namespace GeoPartition.Toml.Entries

/-! ## Through one entry -/

/-- What becomes of some entries when those within one of them change. If it was not there, a table
is made. -/
inductive Enters (made : Origin) (k : String) (es es' : Entries) : Entries → Entries → Prop
  | absent {inner' : Entries} (h : es.lookup k = none)
      (h' : es'.lookup k = some (.table made inner')) : Enters made k es es' [] inner'
  | table {inner inner' : Entries} {origin : Origin} (h : es.lookup k = some (.table origin inner))
      (h' : es'.lookup k = some (.table origin inner')) : Enters made k es es' inner inner'
  | item {last last' : Entries} {items : List Entries}
      (h : es.lookup k = some (.tables (items ++ [last])))
      (h' : es'.lookup k = some (.tables (items ++ [last']))) : Enters made k es es' last last'

/-- A change in an array of tables is one of its last table. -/
theorem changeLast_eq_some {change : Entries → Option Entries} {items items' : List Entries}
    (h : changeLast change items = some items') : ∃ front last last', items = front ++ [last] ∧
      change last = some last' ∧ items' = front ++ [last'] := by
  cases items using List.reverseRecOn with
  | nil => simp [changeLast] at h
  | append_singleton front last =>
    cases hlast : change last with
    | none => simp [changeLast, hlast] at h
    | some last' =>
      refine ⟨front, last, last', rfl, hlast, ?_⟩
      simpa [changeLast, hlast] using h.symm

/-- **A change at a path** goes through the entry with its first name. -/
theorem within_cons {k : String} {p : List String} {change : Entries → Option Entries}
    {es es' : Entries} (h : within (k :: p) change es = some es') :
    ∃ inner inner', within p change inner = some inner' ∧
      Enters .onTheWay k es es' inner inner' ∧ Frame [k] es es' ∧ (Single k es → Single k es') := by
  rw [within] at h
  split at h
  · next hlookup =>
    obtain ⟨inner', hinner, h⟩ := Option.bind_eq_some_iff.1 h
    obtain rfl := Option.some.inj h
    exact ⟨[], inner', hinner, .absent hlookup (lookup_concat_self hlookup _), frame_concat k _ es,
      fun _ => single_concat hlookup _⟩
  · next origin inner hlookup =>
    obtain ⟨inner', hinner, h⟩ := Option.bind_eq_some_iff.1 h
    obtain rfl := Option.some.inj h
    exact ⟨inner, inner', hinner, .table hlookup (lookup_replace_self hlookup _),
      frame_replace k _ es, single_replace _⟩
  · next items hlookup =>
    obtain ⟨items', hitems, h⟩ := Option.bind_eq_some_iff.1 h
    obtain rfl := Option.some.inj h
    obtain ⟨front, last, last', rfl, hlast, rfl⟩ := changeLast_eq_some hitems
    exact ⟨last, last', hlast, .item hlookup (lookup_replace_self hlookup _),
      frame_replace k _ es, single_replace _⟩
  · cases h

/-! ## Ways -/

/-- A path leads to entries of a kind. On a fresh way, tables that are not there are made. -/
inductive Reach (fresh : Prop) (Q : Entries → Prop) : List String → Entries → Prop
  | here {es : Entries} (h : Q es) : Reach fresh Q [] es
  | absent {k : String} {p : List String} {es : Entries} (hfresh : fresh)
      (h : es.lookup k = none) (hp : Reach fresh Q p []) : Reach fresh Q (k :: p) es
  | table {k : String} {p : List String} {es inner : Entries} {origin : Origin}
      (h : es.lookup k = some (.table origin inner)) (hp : Reach fresh Q p inner) :
      Reach fresh Q (k :: p) es
  | item {k : String} {p : List String} {es last : Entries} {items : List Entries}
      (h : es.lookup k = some (.tables (items ++ [last]))) (hp : Reach fresh Q p last) :
      Reach fresh Q (k :: p) es

section

variable {fresh : Prop} {Q : Entries → Prop} {p q : List String} {es es' : Entries}
  {change : Entries → Option Entries}

/-- Where a path leads depends on the entry with its first name. -/
theorem Reach.congr {k : String} (h : Reach fresh Q (k :: p) es)
    (hlookup : es'.lookup k = es.lookup k) : Reach fresh Q (k :: p) es' := by
  cases h with
  | absent hfresh h hp => exact .absent hfresh (hlookup.trans h) hp
  | table h hp => exact .table (hlookup.trans h) hp
  | item h hp => exact .item (hlookup.trans h) hp

theorem reach_nil (hfresh : fresh) (h : Q []) (p : List String) : Reach fresh Q p [] := by
  induction p with
  | nil => exact .here h
  | cons k p ih => exact .absent hfresh List.lookup_nil ih

/-- What is behind an entry before and after a change in it. -/
theorem Reach.enters {made : Origin} {k : String} {inner inner' : Entries}
    (h : Reach fresh Q (k :: p) es) (he : Enters made k es es' inner inner') :
    Reach fresh Q p inner ∧ (Reach fresh Q p inner' → Reach fresh Q (k :: p) es') := by
  cases he with
  | absent hes hes' =>
    refine ⟨?_, .table hes'⟩
    cases h with
    | absent _ _ hp => exact hp
    | table h _ => simp [hes] at h
    | item h _ => simp [hes] at h
  | table hes hes' =>
    refine ⟨?_, .table hes'⟩
    cases h with
    | absent _ h _ => simp [hes] at h
    | table h hp =>
      rw [hes] at h
      cases h
      exact hp
    | item h _ => simp [hes] at h
  | item hes hes' =>
    refine ⟨?_, .item hes'⟩
    cases h with
    | absent _ h _ => simp [hes] at h
    | table h _ => simp [hes] at h
    | item h hp =>
      have hitems := Node.tables.inj (Option.some.inj (hes.symm.trans h))
      obtain ⟨-, rfl⟩ := List.append_singleton_inj.1 hitems
      exact hp

theorem Reach.mono {fresh' : Prop} {Q' : Entries → Prop} (hfresh : fresh → fresh')
    (hQ : ∀ sub, Q sub → Q' sub) (h : Reach fresh Q p es) : Reach fresh' Q' p es := by
  induction h with
  | here h => exact .here (hQ _ h)
  | absent h hlookup _ ih => exact .absent (hfresh h) hlookup ih
  | table hlookup _ ih => exact .table hlookup ih
  | item hlookup _ ih => exact .item hlookup ih

/-- A change at the end of a fresh way can be made if it can be made there. -/
theorem Reach.exists_within (h : Reach fresh Q p es)
    (hchange : ∀ sub, Q sub → ∃ sub', change sub = some sub') :
    ∃ es', within p change es = some es' := by
  induction h with
  | here h => exact hchange _ h
  | absent _ h _ ih | table h _ ih =>
    obtain ⟨inner', hinner⟩ := ih
    simp [within, h, hinner]
  | item h _ ih =>
    obtain ⟨last', hlast⟩ := ih
    simp [within, h, changeLast, hlast]

/-- What is behind the end of a path after a change there. -/
theorem reach_of_within {s : List String} (hw : Entries.within p change es = some es')
    (hs : ∀ sub sub', change sub = some sub' → Reach fresh Q s sub') :
    Reach fresh Q (p ++ s) es' := by
  induction p generalizing es es' with
  | nil => exact hs es es' hw
  | cons k p ih =>
    obtain ⟨inner, inner', hinner, henters, -, -⟩ := within_cons hw
    cases henters with
    | absent _ h' | table _ h' => exact .table h' (ih hinner)
    | item _ h' => exact .item h' (ih hinner)

/-- **What is done at the end of one path**, as another sees it. -/
theorem Reach.within {fresh' : Prop} {R : Entries → Prop} (h : Reach fresh Q q es)
    (hp : Reach fresh' R p es) (hw : within p change es = some es')
    (hbelow : ∀ s sub sub', q = p ++ s → R sub → change sub = some sub' →
      Reach fresh Q s sub → Reach fresh Q s sub')
    (habove : ∀ k s sub sub' inner inner', p = q ++ k :: s →
      Enters .onTheWay k sub sub' inner inner' → Frame [k] sub sub' →
      (Single k sub → Single k sub') → Q sub → Q sub') : Reach fresh Q q es' := by
  induction p generalizing q es es' with
  | nil =>
    cases hp with
    | here hp => exact hbelow q es es' rfl hp hw h
  | cons k p ih =>
    obtain ⟨inner, inner', hinner, henters, hframe, hsingle⟩ := within_cons hw
    cases q with
    | nil =>
      cases h with
      | here h => exact .here (habove k p es es' inner inner' rfl henters hframe hsingle h)
    | cons j q =>
      by_cases hj : j = k
      · subst hj
        obtain ⟨hreach, hback⟩ := h.enters henters
        refine hback (ih hreach (hp.enters henters).1 hinner (fun s sub sub' hs => ?_)
          fun i s sub sub' x x' hs => ?_)
        · exact hbelow s sub sub' (by rw [hs, List.cons_append])
        · exact habove i s sub sub' x x' (by rw [hs, List.cons_append])
      · exact h.congr (hframe.lookup (by simpa using hj))

end

/-! ## What a line needs of the entries at its place -/

/-- The entry with a name decides about a kind of entries. -/
def Needs (n : String) (Q : Entries → Prop) : Prop :=
  ∀ j, j ≠ n → ∀ es es', Frame [j] es es' → Q es → Q es'

/-- A kind of entries that is kept when the entry with a name is entered. -/
def Passes (n : String) (Q : Entries → Prop) : Prop :=
  ∀ es es' inner inner', Enters .onTheWay n es es' inner inner' → (Single n es → Single n es') →
    Q es → Q es'

/-- A table with a name can get its header. -/
def CanOpen (n : String) (es : Entries) : Prop :=
  Single n es ∧ (es.lookup n = none ∨ ∃ inner, es.lookup n = some (.table .onTheWay inner))

/-- An array of tables with a name is there. -/
def HasItems (n : String) (es : Entries) : Prop := ∃ items, es.lookup n = some (.tables items)

/-- An array of tables with a name can get an item. -/
def CanAdd (n : String) (es : Entries) : Prop := es.lookup n = none ∨ HasItems n es

theorem needs_canOpen (n : String) : Needs n (CanOpen n) := by
  intro j hj es es' hframe h
  rw [CanOpen, hframe.lookup (by simpa using Ne.symm hj)]
  exact ⟨hframe.single (Ne.symm hj) h.1, h.2⟩

theorem needs_hasItems (n : String) : Needs n (HasItems n) := by
  intro j hj es es' hframe h
  rwa [HasItems, hframe.lookup (by simpa using Ne.symm hj)]

theorem needs_canAdd (n : String) : Needs n (CanAdd n) := by
  intro j hj es es' hframe h
  rwa [CanAdd, HasItems, hframe.lookup (by simpa using Ne.symm hj)]

theorem needs_isFree (k : String) (p : List String) : Needs k (IsFree (k :: p)) := by
  intro j hj es es' hframe h
  exact h.congr (hframe.lookup (by simpa using Ne.symm hj))

theorem passes_canOpen (n : String) : Passes n (CanOpen n) := by
  intro es es' inner inner' henters hsingle h
  refine ⟨hsingle h.1, ?_⟩
  cases henters with
  | absent _ h' => exact .inr ⟨_, h'⟩
  | table hes h' =>
    rcases h.2 with h | ⟨inner, h⟩
    · simp [hes] at h
    · rw [hes] at h
      cases h
      exact .inr ⟨_, h'⟩
  | item hes _ => rcases h.2 with h | ⟨inner, h⟩ <;> simp [hes] at h

theorem passes_hasItems (n : String) : Passes n (HasItems n) := by
  intro es es' inner inner' henters hsingle h
  obtain ⟨items, h⟩ := h
  cases henters with
  | absent hes _ => simp [hes] at h
  | table hes _ => simp [hes] at h
  | item _ h' => exact ⟨_, h'⟩

/-! ## Operations at the end of a path -/

section

variable {fresh fresh' : Prop} {Q : Entries → Prop} {p q : List String} {k n : String}
  {es es' : Entries}

theorem CanOpen.exists_openTable (h : CanOpen k es) : ∃ es', es.openTable k = some es' := by
  rcases h.2 with h | ⟨inner, h⟩ <;> simp [openTable, h]

theorem CanAdd.exists_openItem (h : CanAdd k es) : ∃ es', es.openItem k = some es' := by
  rcases h with h | ⟨items, h⟩ <;> simp [openItem, h]

theorem frame_openTable (ho : es.openTable k = some es') : Frame [k] es es' := by
  rw [openTable] at ho
  split at ho
  · obtain rfl := Option.some.inj ho
    exact frame_concat k _ es
  · obtain rfl := Option.some.inj ho
    exact (frame_erase k es).trans (frame_concat k _ _)
  · cases ho

/-- A table that gets its header has the entries that it had before. -/
theorem CanOpen.openTable (h : CanOpen k es) (ho : es.openTable k = some es') :
    ∃ inner, es'.lookup k = some (.table .header inner) ∧
      ((es.lookup k = none ∧ inner = []) ∨ es.lookup k = some (.table .onTheWay inner)) := by
  obtain ⟨hsingle, hlookup | ⟨inner, hlookup⟩⟩ := h
  · obtain rfl : es ++ [(k, .table .header [])] = es' := by
      simpa [Entries.openTable, hlookup] using ho
    exact ⟨[], lookup_concat_self hlookup _, .inl ⟨hlookup, rfl⟩⟩
  · obtain rfl : erase k es ++ [(k, .table .header inner)] = es' := by
      simpa [Entries.openTable, hlookup] using ho
    exact ⟨inner, lookup_concat_self hsingle.lookup_erase _, .inr hlookup⟩

theorem frame_openItem (ho : es.openItem k = some es') :
    Frame [k] es es' ∧ ∃ items, es'.lookup k = some (.tables (items ++ [[]])) := by
  rw [openItem] at ho
  split at ho
  · next h =>
    obtain rfl := Option.some.inj ho
    exact ⟨frame_concat k _ es, [], lookup_concat_self h _⟩
  · next items h =>
    obtain rfl := Option.some.inj ho
    exact ⟨frame_replace k _ es, items, lookup_replace_self h _⟩
  · cases ho

/-- Giving a value to a dotted key enters the entry with its first part. -/
theorem isFree_assign_cons {path : List String} {key : String} {v : Value}
    (h : IsFree (k :: path ++ [key]) es) (ha : assign (k :: path) key v es = some es') :
    ∃ inner inner', IsFree (path ++ [key]) inner ∧ assign path key v inner = some inner' ∧
      Enters .dotted k es es' inner inner' := by
  cases h with
  | absent hlookup =>
    rw [assign, hlookup] at ha
    obtain ⟨inner', hinner, ha⟩ := Option.bind_eq_some_iff.1 ha
    obtain rfl := Option.some.inj ha
    exact ⟨[], inner', isFree_nil (by simp), hinner, .absent hlookup (lookup_concat_self hlookup _)⟩
  | @inside _ _ _ inner hlookup hinner =>
    rw [assign, hlookup] at ha
    dsimp only at ha
    rw [if_neg (by simp)] at ha
    obtain ⟨inner', hinner', ha⟩ := Option.bind_eq_some_iff.1 ha
    obtain rfl := Option.some.inj ha
    exact ⟨inner, inner', hinner, hinner', .table hlookup (lookup_replace_self hlookup _)⟩

/-! ## What stays within reach -/

theorem above_of_passes (hn : Needs n Q) (hpass : q ++ [n] <+: p → Passes n Q) (j : String)
    (s : List String) (sub sub' inner inner' : Entries) (hp : p = q ++ j :: s)
    (henters : Enters .onTheWay j sub sub' inner inner') (hframe : Frame [j] sub sub')
    (hsingle : Single j sub → Single j sub') (h : Q sub) : Q sub' := by
  by_cases hj : j = n
  · subst hj
    exact hpass ⟨s, by simp [hp]⟩ sub sub' inner inner' henters hsingle h
  · exact hn j hj sub sub' hframe h

/-- **A header** keeps what can be reached: a table that gets its header late has the same entries
as before. -/
theorem Reach.openTable (h : Reach fresh Q q es) (hp : Reach fresh' (CanOpen k) p es)
    (hw : Entries.within p (·.openTable k) es = some es') (hn : Needs n Q)
    (hne : q ++ [n] ≠ p ++ [k]) (hpass : q ++ [n] <+: p → Passes n Q) : Reach fresh Q q es' := by
  refine h.within hp hw (fun s sub sub' hq hopen ho hs => ?_) (above_of_passes hn hpass)
  have hframe := frame_openTable ho
  obtain ⟨inner, hlookup, hbefore⟩ := hopen.openTable ho
  cases s with
  | nil =>
    cases hs with
    | here hs =>
      refine .here (hn k ?_ sub sub' hframe hs)
      rintro rfl
      exact hne (by simp [hq])
  | cons j s =>
    by_cases hj : j = k
    · subst hj
      refine .table hlookup ?_
      rcases hbefore with ⟨hsub, rfl⟩ | hsub
      · have henters : Enters .header j sub sub' [] _ := .absent hsub hlookup
        exact (hs.enters henters).1
      · cases hs with
        | absent _ h _ => simp [hsub] at h
        | table h hs =>
          rw [hsub] at h
          cases h
          exact hs
        | item h _ => simp [hsub] at h
    · exact hs.congr (hframe.lookup (by simpa using hj))

/-- **A new item** of an array keeps what can be reached outside of it. -/
theorem Reach.openItem (h : Reach fresh Q q es) (hp : Reach fresh' (CanAdd k) p es)
    (hw : Entries.within p (·.openItem k) es = some es') (hn : Needs n Q)
    (hsame : q ++ [n] = p ++ [k] → ∀ sub, HasItems k sub → Q sub)
    (hout : ¬ p ++ [k] <+: q) (hpass : q ++ [n] <+: p → Passes n Q) : Reach fresh Q q es' := by
  refine h.within hp hw (fun s sub sub' hq _ ho hs => ?_) (above_of_passes hn hpass)
  obtain ⟨hframe, items, hlookup⟩ := frame_openItem ho
  cases s with
  | nil =>
    cases hs with
    | here hs =>
      by_cases hk : k = n
      · subst hk
        exact .here (hsame (by simp [hq]) sub' ⟨_, hlookup⟩)
      · exact .here (hn k hk sub sub' hframe hs)
  | cons j s =>
    have hj : j ≠ k := by
      rintro rfl
      exact hout ⟨s, by simp [hq]⟩
    exact hs.congr (hframe.lookup (by simpa using hj))

/-- In a new item, all can be reached that can be made. -/
theorem reach_openItem (hw : Entries.within p (·.openItem k) es = some es') (hQ : Q [])
    (h : p ++ [k] <+: q) : Reach True Q q es' := by
  obtain ⟨s, rfl⟩ := h
  rw [List.append_assoc]
  refine reach_of_within hw fun sub sub' ho => ?_
  obtain ⟨-, items, hlookup⟩ := frame_openItem ho
  exact .item hlookup (reach_nil trivial hQ s)

theorem reach_hasItems (hw : Entries.within p (·.openItem k) es = some es') :
    Reach False (HasItems k) p es' := by
  rw [← List.append_nil p]
  refine reach_of_within hw fun sub sub' ho => ?_
  obtain ⟨-, items, hlookup⟩ := frame_openItem ho
  exact .here ⟨_, hlookup⟩

/-- A change at a path is one of the entry with its first name. -/
theorem frame_within {change : Entries → Option Entries}
    (hw : Entries.within p change es = some es')
    (hchange : ∀ sub sub', change sub = some sub' → Frame [n] sub sub') :
    Frame [first (p ++ [n])] es es' := by
  cases p with
  | nil => exact hchange es es' hw
  | cons k p =>
    obtain ⟨-, -, -, -, hframe, -⟩ := within_cons hw
    exact hframe

theorem frame_assign {path : List String} {key : String} {v : Value}
    (h : IsFree (path ++ [key]) es) (ha : assign path key v es = some es') :
    Frame [first (path ++ [key])] es es' := by
  obtain ⟨es'', ha', -, hframe⟩ := h.assign v
  obtain rfl := Option.some.inj (ha.symm.trans ha')
  exact hframe

/-- A member is put at its key, and tables are made on the way. -/
theorem Reach.assign {path : List String} {key : String} {v : Value} (h : Reach fresh Q q es)
    (hfree : IsFree (path ++ [key]) es) (ha : Entries.assign path key v es = some es')
    (hvalue : ¬ path ++ [key] <+: q)
    (hend : ∀ path', path ++ [key] = q ++ (path' ++ [key]) → ∀ sub sub',
      IsFree (path' ++ [key]) sub → Entries.assign path' key v sub = some sub' → Q sub → Q sub') :
    Reach fresh Q q es' := by
  induction path generalizing q es es' with
  | nil =>
    cases q with
    | nil =>
      cases h with
      | here h => exact .here (hend [] rfl es es' hfree ha h)
    | cons i q =>
      have hi : i ≠ key := by
        rintro rfl
        exact hvalue (by simp)
      exact h.congr ((frame_assign hfree ha).lookup (by simpa using hi))
  | cons j path ih =>
    cases q with
    | nil =>
      cases h with
      | here h => exact .here (hend (j :: path) rfl es es' hfree ha h)
    | cons i q =>
      by_cases hi : i = j
      · subst hi
        obtain ⟨inner, inner', hfree', ha', henters⟩ := isFree_assign_cons hfree ha
        obtain ⟨hreach, hback⟩ := h.enters henters
        refine hback (ih hreach hfree' ha' (fun hprefix => ?_) fun path' hpath => ?_)
        · exact hvalue (List.cons_prefix_cons.2 ⟨rfl, hprefix⟩)
        · exact hend path' (by rw [List.cons_append, hpath, List.cons_append])
      · exact h.congr ((frame_assign hfree ha).lookup (by simpa using hi))

/-- **A member** keeps what can be reached beside it. -/
theorem Reach.member {path : List String} {key : String} {v : Value} (h : Reach fresh Q q es)
    (hp : Reach fresh' (IsFree (path ++ [key])) p es)
    (hw : Entries.within p (·.assign path key v) es = some es') (hn : Needs n Q)
    (hvalue : ¬ p ++ (path ++ [key]) <+: q)
    (hend : ∀ path', p ++ (path ++ [key]) = q ++ (path' ++ [key]) → p <+: q → ∀ sub sub',
      IsFree (path' ++ [key]) sub → Entries.assign path' key v sub = some sub' → Q sub → Q sub')
    (hpass : q ++ [n] <+: p → Passes n Q) : Reach fresh Q q es' := by
  refine h.within hp hw (fun s sub sub' hq hfree ha hs => ?_) (above_of_passes hn hpass)
  subst hq
  refine hs.assign hfree ha (fun hprefix => ?_) fun path' hpath => ?_
  · exact hvalue ((List.prefix_append_right_inj p).2 hprefix)
  · exact hend path' (by rw [hpath, List.append_assoc]) (List.prefix_append p s)

end

end GeoPartition.Toml.Entries
