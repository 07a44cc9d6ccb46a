import GeoPartition.Proofs.Bucket.Path
import GeoPartition.Proofs.Text.Case

/-!
# Paths name buckets

**Theorem (`path_faithful`).** The buckets of codes have the same path only if they are the same
bucket, whatever the codes hold: separators, the names of regions, or characters of any script.

A path can be read back (`ofPath_path`): it is the name of a region, or empty, or it has the symbols
of a cell at its even places. Only the cell without symbols is lost, and it is not the bucket of any
codes (`ofCodes_ne_cell_nil`): first symbols that the folding of symbols makes equal, so that a cell
is chosen, are made equal by the folding of whole codes too.
-/

namespace GeoPartition

theorem Cover.toLower_eq_of_ofCorners {a b c : Char} (h : ofCorners a b = .cell c) :
    a.toLower = b.toLower := by
  by_contra hne
  simp only [ofCorners, if_neg hne] at h
  split_ifs at h
  cases hq : Quadrant.ofSymbol? a.toLower <;> simp [hq] at h

namespace Bucket

/-! ## Reading paths back -/

/-- The items of a list at its even places. -/
def everyOther {α : Type} : List α → List α
  | a :: _ :: l => a :: everyOther l
  | l => l

theorem everyOther_intersperse {α : Type} (sep : α) :
    ∀ s : List α, everyOther (s.intersperse sep) = s
  | [] => rfl
  | [_] => rfl
  | a :: b :: s => by
    rw [List.intersperse_cons_cons, everyOther, everyOther_intersperse sep (b :: s)]

theorem everyOther_toList_path (s : Code) : everyOther (cell s).path.toList = s := by
  rw [path, String.toList_ofList, everyOther_intersperse]

/-- The bucket that a path names. -/
def ofPath (name : String) : Bucket :=
  match Region.ofName? name with
  | some r => region r
  | none => if name = "" then unclassified else cell (everyOther name.toList)

/-- **Reading back.** Every bucket but the cell without symbols can be read off its path. -/
theorem ofPath_path {b : Bucket} (h : b ≠ cell []) : ofPath b.path = b := by
  unfold ofPath
  cases hname : Region.ofName? b.path with
  | some r => exact (ofName?_path.1 hname).symm
  | none =>
    cases b with
    | region r =>
      rw [ofName?_path.2 rfl] at hname
      cases hname
    | unclassified => rfl
    | cell s =>
      have hs : (cell s).path ≠ "" := by
        intro hempty
        have hnil := everyOther_toList_path s
        rw [hempty, String.toList_empty] at hnil
        exact h (congrArg cell hnil.symm)
      dsimp only
      rw [if_neg hs, everyOther_toList_path]

theorem path_inj {b c : Bucket} (hb : b ≠ cell []) (hc : c ≠ cell []) : b.path = c.path ↔ b = c := by
  refine ⟨fun h => ?_, fun h => h ▸ rfl⟩
  rw [← ofPath_path hb, h, ofPath_path hc]

theorem path_eq_empty_iff {b : Bucket} (h : b ≠ cell []) : b.path = "" ↔ b = unclassified :=
  path_inj (c := unclassified) h (by simp)

/-! ## The buckets of codes -/

/-- A cell has a symbol, as both of its corners have. -/
theorem ofCodes_ne_cell_nil (s t : Code) : ofCodes s t ≠ cell [] := by
  cases s with
  | nil => simp [ofCodes]
  | cons a s =>
    cases t with
    | nil => simp [ofCodes]
    | cons b t =>
      cases hcover : Cover.ofCorners a b with
      | cell c =>
        have hhead := Text.head?_lowercase_eq (Cover.toLower_eq_of_ofCorners hcover) s t
        have hne := commonPrefix_ne_nil hhead (Text.lowercase_cons_ne_nil a s)
        simpa [ofCodes, hcover, sharedCode] using hne
      | _ => simp [ofCodes, hcover]

/-- **Paths name buckets.** The buckets of two pairs of codes have the same path exactly if they are
the same; the path is the name of a region exactly for that region, and empty exactly if there is no
bucket. So a summary that sees only the path tells regions from cells as the bucket does. -/
theorem path_faithful (a b c d : Code) :
    ((ofCodes a b).path = (ofCodes c d).path ↔ ofCodes a b = ofCodes c d) ∧
    (∀ r, Region.ofName? (ofCodes a b).path = some r ↔ ofCodes a b = region r) ∧
    ((ofCodes a b).path = "" ↔ ofCodes a b = unclassified) ∧
    Summary.isRegionName (ofCodes a b).path = (ofCodes a b).isRegion := by
  have hab := ofCodes_ne_cell_nil a b
  exact ⟨path_inj hab (ofCodes_ne_cell_nil c d), fun _ => ofName?_path, path_eq_empty_iff hab,
    isRegionName_path _⟩

/-- A separator that the codes share is a symbol like any other. -/
example : (ofCodes "a/b".toList "A/c".toList).path = "a//" := by decide

end Bucket

end GeoPartition
