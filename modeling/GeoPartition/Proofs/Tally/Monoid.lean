import GeoPartition.Proofs.Tally.Merge

/-!
# Tallies are a commutative monoid

Merging is addition: the empty tally is its zero, and an update is the addition of the tally that
holds this update alone. So a tally that was put together from updates and merges is the sum of its
updates, whatever the shape of the merges (`Gathering.tally_eq`).

**Theorem (`merge_order_independent`).** Merging is commutative and associative and has the empty
tally for its unit, an update may be made before a merge or after it, and the entries of a tally may
be merged in any order. Updates in any order, spread over any number of tallies that are merged in
any tree, give the same tally: the counts are sums of what was recorded, a name is present if it was
ever recorded, be it zero times, and skips are counted.

Counts are natural numbers, so no sum is too large.
-/

namespace GeoPartition

/-! ## Counts -/

namespace Counts

/-- **Merging is commutative.** -/
theorem merge_comm (c d : Counts) : c.merge d = d.merge c := by
  apply ext_lookup
  intro k
  rw [lookup_merge, lookup_merge, get, get]
  cases c.toList.lookup k with
  | none => cases d.toList.lookup k <;> simp
  | some m =>
    cases d.toList.lookup k with
    | none => simp
    | some n => simp [Nat.add_comm]

/-- **Merging is associative.** -/
theorem merge_assoc (c d e : Counts) : (c.merge d).merge e = c.merge (d.merge e) := by
  apply ext_lookup
  intro k
  rw [lookup_merge, lookup_merge, lookup_merge, lookup_merge, get_merge]
  cases e.toList.lookup k with
  | none => rfl
  | some n =>
    have hd : d.get k = (d.toList.lookup k).getD 0 := rfl
    cases h : d.toList.lookup k with
    | none => simp [hd, h]
    | some m => simp [hd, h, Nat.add_assoc]

/-- The names that are present, those with a count of zero included. -/
def names (c : Counts) : List String := c.toList.map (·.1)

theorem mem_names_iff {c : Counts} {k : String} :
    k ∈ c.names ↔ (c.toList.lookup k).isSome := by
  rw [Option.isSome_iff_exists, names, List.mem_map]
  constructor
  · rintro ⟨⟨_, n⟩, he, rfl⟩
    exact ⟨n, c.sorted.mem_iff.1 he⟩
  · rintro ⟨n, hn⟩
    exact ⟨(k, n), c.sorted.mem_iff.2 hn, rfl⟩

theorem nodup_names (c : Counts) : c.names.Nodup :=
  List.pairwise_map.2 (c.sorted.imp fun h => ne_of_lt h)

theorem mem_names_merge {c d : Counts} {k : String} :
    k ∈ (c.merge d).names ↔ k ∈ c.names ∨ k ∈ d.names := by
  rw [mem_names_iff, mem_names_iff, mem_names_iff, lookup_merge]
  cases d.toList.lookup k <;> simp

theorem mem_names_add {c : Counts} {name k : String} {n : ℕ} :
    k ∈ (c.add name n).names ↔ k = name ∨ k ∈ c.names := by
  rw [mem_names_iff, mem_names_iff, lookup_add]
  by_cases h : k = name <;> simp [h]

/-- A count may be added in two parts. -/
theorem add_add_self (c : Counts) (name : String) (m n : ℕ) :
    (c.add name m).add name n = c.add name (m + n) := by
  apply ext_lookup
  intro k
  rw [lookup_add, lookup_add, lookup_add, get_add]
  by_cases h : k = name <;> simp [h, Nat.add_assoc]

/-- Takes in some entries in the order given. A name that is not present is put there with a count
of zero before the entry is added to it. -/
def absorb (c : Counts) (entries : List (String × ℕ)) : Counts :=
  entries.foldl (fun c e => (c.add e.1 0).add e.1 e.2) c

/-- **The order of the entries** of the second operand does not matter. -/
theorem absorb_eq_merge {c d : Counts} {entries : List (String × ℕ)}
    (h : entries.Perm d.toList) : c.absorb entries = c.merge d := by
  have hstep : (fun (c : Counts) (e : String × ℕ) => (c.add e.1 0).add e.1 e.2) =
      fun c e => c.add e.1 e.2 := by
    funext c e
    rw [add_add_self, Nat.zero_add]
  rw [absorb, merge, hstep]
  exact h.foldl_eq' (fun e _ f _ c => add_add_comm c e.1 f.1 e.2 f.2) c

end Counts

/-! ## Tallies -/

namespace Tally

theorem merge_comm (t u : Tally) : t.merge u = u.merge t := by
  simp only [merge, Counts.merge_comm t.counts, Nat.add_comm t.skipped]

theorem merge_assoc (t u v : Tally) : (t.merge u).merge v = t.merge (u.merge v) := by
  simp only [merge, Counts.merge_assoc, Nat.add_assoc]

theorem empty_merge (t : Tally) : empty.merge t = t := by rw [merge_comm, merge_empty]

theorem merge_recordMany (t u : Tally) (bucket : String) (n : ℕ) :
    t.merge (u.recordMany bucket n) = (t.merge u).recordMany bucket n := by
  simp only [merge, recordMany, Counts.merge_add]

instance : Add Tally := ⟨merge⟩

instance : Zero Tally := ⟨empty⟩

instance : AddCommMonoid Tally where
  add_assoc := merge_assoc
  zero_add := empty_merge
  add_zero := merge_empty
  add_comm := merge_comm
  nsmul := nsmulRec

theorem add_eq_merge (t u : Tally) : t + u = t.merge u := rfl

/-- The count of a bucket, as a map that keeps sums. -/
def countHom (bucket : String) : Tally →+ ℕ where
  toFun t := t.count bucket
  map_zero' := rfl
  map_add' t u := Counts.get_merge t.counts u.counts bucket

/-! ## Updates -/

/-- One change to a tally. -/
inductive Update
  | record (bucket : String)
  | recordMany (bucket : String) (n : ℕ)
  | recordSkipped
deriving DecidableEq

namespace Update

def apply : Update → Tally → Tally
  | record bucket, t => t.record bucket
  | recordMany bucket n, t => t.recordMany bucket n
  | recordSkipped, t => t.recordSkipped

/-- The bucket that is counted. -/
def bucket? : Update → Option String
  | record bucket | recordMany bucket _ => some bucket
  | recordSkipped => none

/-- What is added to the count of a bucket. -/
def amount (bucket : String) : Update → ℕ
  | record b => if bucket = b then 1 else 0
  | recordMany b n => if bucket = b then n else 0
  | recordSkipped => 0

def isSkip : Update → Bool
  | recordSkipped => true
  | record _ | recordMany _ _ => false

/-- The tally of one update. -/
def single (x : Update) : Tally := x.apply empty

theorem merge_apply (x : Update) (t u : Tally) : t.merge (x.apply u) = x.apply (t.merge u) := by
  cases x with
  | record bucket => exact merge_record t u bucket
  | recordMany bucket n => exact merge_recordMany t u bucket n
  | recordSkipped => exact merge_recordSkipped t u

/-- **An update may be made before a merge or after it.** -/
theorem apply_merge (x : Update) (t u : Tally) : (x.apply t).merge u = x.apply (t.merge u) := by
  rw [merge_comm, merge_apply, merge_comm u]

/-- An update adds its own tally. -/
theorem apply_eq_add (x : Update) (t : Tally) : x.apply t = x.single + t := by
  rw [add_eq_merge, single, apply_merge, empty_merge]

theorem count_apply (x : Update) (t : Tally) (bucket : String) :
    (x.apply t).count bucket = t.count bucket + x.amount bucket := by
  cases x with
  | record b => exact t.counts.get_add b 1 bucket
  | recordMany b n => exact t.counts.get_add b n bucket
  | recordSkipped => rfl

theorem mem_names_apply {x : Update} {t : Tally} {k : String} :
    k ∈ (x.apply t).counts.names ↔ x.bucket? = some k ∨ k ∈ t.counts.names := by
  cases x with
  | record b => simp [apply, Tally.record, Tally.recordMany, Counts.mem_names_add, bucket?, eq_comm]
  | recordMany b n => simp [apply, Tally.recordMany, Counts.mem_names_add, bucket?, eq_comm]
  | recordSkipped => simp [apply, Tally.recordSkipped, bucket?]

theorem count_single (x : Update) (bucket : String) : x.single.count bucket = x.amount bucket :=
  (x.count_apply empty bucket).trans (Nat.zero_add _)

theorem mem_names_single {x : Update} {k : String} :
    k ∈ x.single.counts.names ↔ x.bucket? = some k :=
  mem_names_apply.trans (or_iff_left List.not_mem_nil)

theorem skipped_single (x : Update) : x.single.skipped = if x.isSkip then 1 else 0 := by
  cases x <;> rfl

end Update

/-! ## Sums of updates -/

section sum

variable (l : List Update)

theorem count_sum_single (bucket : String) :
    (l.map Update.single).sum.count bucket = (l.map (Update.amount bucket)).sum := by
  show countHom bucket _ = _
  rw [map_list_sum, List.map_map]
  exact congrArg List.sum (List.map_congr_left fun x _ => x.count_single bucket)

theorem skipped_sum_single : (l.map Update.single).sum.skipped = l.countP Update.isSkip := by
  induction l with
  | nil => rfl
  | cons x l ih =>
    rw [List.map_cons, List.sum_cons, List.countP_cons, ← ih, ← x.skipped_single]
    exact Nat.add_comm _ _

theorem mem_names_sum_single {k : String} :
    k ∈ (l.map Update.single).sum.counts.names ↔ k ∈ l.filterMap Update.bucket? := by
  induction l with
  | nil => exact Iff.rfl
  | cons x l ih =>
    rw [List.map_cons, List.sum_cons, add_eq_merge, merge, Counts.mem_names_merge, ih,
      Update.mem_names_single, List.mem_filterMap, List.mem_filterMap]
    simp

/-- The number of names is that of the different names recorded. -/
theorem size_sum_single :
    (l.map Update.single).sum.counts.size = (l.filterMap Update.bucket?).toFinset.card := by
  have hnames : (l.filterMap Update.bucket?).toFinset =
      (l.map Update.single).sum.counts.names.toFinset := by
    ext k
    rw [List.mem_toFinset, List.mem_toFinset, mem_names_sum_single]
  rw [hnames, List.toFinset_card_of_nodup (Counts.nodup_names _)]
  exact (List.length_map _).symm

end sum

/-! ## Gatherings -/

/-- A way to come by a tally: begin with nothing, update what is there, or merge two tallies. -/
inductive Gathering
  | nothing
  | update (x : Update) (g : Gathering)
  | merge (g h : Gathering)

namespace Gathering

def tally : Gathering → Tally
  | nothing => .empty
  | update x g => x.apply g.tally
  | merge g h => g.tally.merge h.tally

/-- The updates that went into a tally, without the shape of the merges. -/
def updates : Gathering → List Update
  | nothing => []
  | update x g => x :: g.updates
  | merge g h => g.updates ++ h.updates

/-- **A tally is the sum of its updates.** -/
theorem tally_eq (g : Gathering) : g.tally = (g.updates.map Update.single).sum := by
  induction g with
  | nothing => rfl
  | update x g ih => rw [tally, updates, List.map_cons, List.sum_cons, Update.apply_eq_add, ih]
  | merge g h ihg ihh =>
    rw [tally, updates, List.map_append, List.sum_append, ihg, ihh, add_eq_merge]

end Gathering

/-- **The order and the places of updates do not matter.** Merging is commutative and associative
with the empty tally for its unit, an update may be made before a merge or after it, and the entries
of the second operand may come in any order. Two gatherings of the same updates give the same tally,
which has the sum of the amounts for the count of a bucket, a name for each bucket that was ever
recorded, and the number of skips. -/
theorem merge_order_independent :
    (∀ t u : Tally, t.merge u = u.merge t) ∧
    (∀ t u v : Tally, (t.merge u).merge v = t.merge (u.merge v)) ∧
    (∀ t : Tally, empty.merge t = t ∧ t.merge empty = t) ∧
    (∀ (x : Update) (t u : Tally), (x.apply t).merge u = x.apply (t.merge u)) ∧
    (∀ (t u : Tally) (entries : List (String × ℕ)), entries.Perm u.counts.toList →
      t.counts.absorb entries = (t.merge u).counts) ∧
    (∀ g h : Gathering, g.updates.Perm h.updates → g.tally = h.tally) ∧
    ∀ g : Gathering,
      (∀ bucket, g.tally.count bucket = (g.updates.map (Update.amount bucket)).sum) ∧
      g.tally.counts.size = (g.updates.filterMap Update.bucket?).toFinset.card ∧
      g.tally.skipped = g.updates.countP Update.isSkip := by
  refine ⟨merge_comm, merge_assoc, fun t => ⟨empty_merge t, merge_empty t⟩, Update.apply_merge,
    fun t u entries h => Counts.absorb_eq_merge h, fun g h hupdates => ?_, fun g => ?_⟩
  · rw [g.tally_eq, h.tally_eq]
    exact (hupdates.map Update.single).sum_eq
  · rw [g.tally_eq]
    exact ⟨count_sum_single g.updates, size_sum_single g.updates, skipped_sum_single g.updates⟩

/-- Two tallies merged, one of them with a bucket that was counted zero times. -/
def twoShards : Gathering :=
  .merge (.update (.record "NE") (.update .recordSkipped .nothing))
    (.update (.recordMany "NE" 2) (.update (.recordMany "SW" 0) .nothing))

/-- The updates of `twoShards`, made in one tally. -/
def oneShard : Gathering :=
  .update (.recordMany "SW" 0) (.update .recordSkipped (.update (.recordMany "NE" 2)
    (.update (.record "NE") .nothing)))

/-- The bucket that was counted zero times is merged as well, and it is one of two names. -/
theorem merge_order_independent_twoShards :
    (twoShards.updates.Perm oneShard.updates ∧ twoShards.tally = oneShard.tally) ∧
    (twoShards.tally.count "NE" = 3 ∧ twoShards.tally.count "SW" = 0 ∧
      twoShards.tally.counts.size = 2 ∧ twoShards.tally.skipped = 1) ∧
    (List.Perm [("SW", 0), ("NE", 3)] oneShard.tally.counts.toList ∧
      Counts.empty.absorb [("SW", 0), ("NE", 3)] = oneShard.tally.counts) := by
  have hupdates : twoShards.updates.Perm oneShard.updates := by decide
  have hentries : List.Perm [("SW", 0), ("NE", 3)] oneShard.tally.counts.toList := by decide
  obtain ⟨-, -, hunit, -, habsorb, horder, hsums⟩ := merge_order_independent
  obtain ⟨hcount, hsize, hskipped⟩ := hsums twoShards
  refine ⟨⟨hupdates, horder _ _ hupdates⟩, ⟨?_, ?_, ?_, ?_⟩, hentries, ?_⟩
  · exact (hcount "NE").trans (by decide)
  · exact (hcount "SW").trans (by decide)
  · exact hsize.trans (by decide)
  · exact hskipped.trans (by decide)
  · exact (habsorb empty _ _ hentries).trans (congrArg counts (hunit _).1)

end Tally

end GeoPartition
