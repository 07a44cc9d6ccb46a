import GeoPartition.Proofs.Toml.Sections

/-!
# Documents of plain lines

**Theorem (`ofText?_lines`).** A document with a bare key and a value on each line is read as these
keys with their values, in their order, if no key stands there twice.

Plain lines are one layout among others, with a blank on either side of each sign and a line end
behind each value.
-/

namespace GeoPartition.Toml

/-- A key with its value, on a line. -/
def line (key : String) (text : List Char) : List Char :=
  key.toList ++ [' ', '=', ' '] ++ text ++ ['\n']

section

variable {ι : Type} {key : ι → String} {text : ι → List Char} {l : List ι}

theorem isLayout_lines (hkey : ∀ i ∈ l, IsBare (key i).toList) :
    IsLayout (l.flatMap fun i => line (key i) (text i))
      (l.map fun i => .entry [key i] (text i)) := by
  induction l with
  | nil => exact .last (.blank isBlanks_nil .absent)
  | cons i l ih =>
    obtain ⟨hi, hkey⟩ := List.forall_mem_cons.1 hkey
    have hline : IsLine _ [.entry [key i] (text i)] := .entry isBlanks_nil (.part (.bare hi))
      isBlanks_blank isBlanks_blank isBlanks_nil .absent
    have hlayout := IsLayout.line hline .feed (ih hkey)
    simpa [line] using hlayout

theorem hasMembers_lines (hkey : ∀ i ∈ l, IsBare (key i).toList)
    (htext : ∀ i ∈ l, IsValue maxDepth (text i)) (hnodup : (l.map key).Nodup) :
    HasMembers (l.flatMap fun i => line (key i) (text i)) (l.map fun i => ([key i], text i))
      [] where
  document := by
    refine ⟨_, ?_, .inl rfl⟩
    simpa [Function.comp_def] using isLayout_lines hkey
  follows := by
    rw [List.append_nil]
    refine follows_members ⟨by simp, by simp [maxDepth], ?_⟩ (by simpa using htext) (by simp)
    rw [List.map_map, List.pairwise_map]
    exact (List.pairwise_map.1 hnodup).imp fun h => apart_singleton h
  opens := by simp

/-- **Documents of plain lines.** -/
theorem ofText?_lines {value : ι → Value} (hkey : ∀ i ∈ l, IsBare (key i).toList)
    (htext : ∀ i ∈ l, IsValue maxDepth (text i)) {n : ℕ}
    (hvalue : ∀ i ∈ l, Spells n (text i) (value i)) (hnodup : (l.map key).Nodup) :
    ofText? (l.flatMap fun i => line (key i) (text i)) =
      some (l.map fun i => (key i, value i)) := by
  obtain ⟨read, hread, entries, hentries, hfilter⟩ := (hasMembers_lines hkey htext hnodup).ofText?
  have hall := hfilter (fun _ => true) (by simp) (by simp)
  have hsame : ∀ i ∈ l, read (text i) = value i := fun i hi =>
    (hread _ (List.mem_map_of_mem hi)).unique (hvalue i hi)
  simp only [List.filter_true, List.map_map] at hall
  rw [hentries, hall]
  refine congrArg some (List.map_congr_left fun i hi => ?_)
  exact Prod.ext rfl (hsame i hi)

end

end GeoPartition.Toml
