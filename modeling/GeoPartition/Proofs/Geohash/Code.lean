import GeoPartition.Proofs.Geohash.Interleave
import GeoPartition.Proofs.Geohash.Word
import GeoPartition.Text.Case

/-!
# The beginnings of codes

**Cutting.** A code cut to fewer symbols is the code of that many symbols.

**Sharing.** Two codes share their first `n` symbols exactly if their positions share the upper
`5 n` bits. With betweenness of interleavings, what the codes of two corners share, the codes of all
coordinates between the corners share (`code_between`).
-/

namespace GeoPartition

namespace Geohash

/-! ## Symbols -/

theorem alphabet_nodup : alphabet.Nodup := by decide

theorem symbol_eq_iff {m n : ℕ} : symbol m = symbol n ↔ m % 32 = n % 32 := by
  unfold symbol
  rw [alphabet_nodup.get_inj_iff, Fin.mk.injEq]

/-- The symbols are ASCII characters that keep their form when made small. -/
theorem small_of_mem_alphabet {c : Char} (h : c ∈ alphabet) :
    c.toNat < 0x80 ∧ c.toLower = c ∧ c ≠ 'Σ' := by
  have hall : alphabet.all (fun c => c.toNat < 0x80 ∧ c.toLower = c ∧ c ≠ 'Σ') = true := by decide
  exact of_decide_eq_true (List.all_eq_true.1 hall c h)

theorem lowercaseAfter_eq_self {s : Code} (h : ∀ c ∈ s, c ∈ alphabet) (before : List Char) :
    Text.lowercaseAfter before s = s := by
  induction s generalizing before with
  | nil => rfl
  | cons c s ih =>
    obtain ⟨hascii, hlower, hsigma⟩ := small_of_mem_alphabet (h c List.mem_cons_self)
    have hc : Text.lowerBetween before c s = [c] := by
      rw [Text.lowerBetween, if_neg hsigma, Text.lowerChar_ascii hascii, hlower]
    rw [Text.lowercaseAfter, hc, ih (fun d hd => h d (List.mem_cons_of_mem c hd))]
    rfl

theorem lowercase_eq_self {s : Code} (h : ∀ c ∈ s, c ∈ alphabet) : Text.lowercase s = s :=
  lowercaseAfter_eq_self h []

/-! ## Cutting -/

theorem symbols_succ (n bits : ℕ) :
    symbols (n + 1) bits = symbols n bits ++ [symbol (bits >>> (59 - 5 * n))] := by
  simp [symbols, List.range_succ]

theorem take_symbols {m n : ℕ} (h : m ≤ n) (bits : ℕ) :
    (symbols n bits).take m = symbols m bits := by
  simp [symbols, ← List.map_take, List.take_range, h]

/-- **Cutting a code.** -/
theorem take_code {m n : ℕ} (h : m ≤ n) (c : Coordinate) : (code n c).take m = code m c :=
  take_symbols h (position c)

theorem head?_code {n : ℕ} (h : 1 ≤ n) (c : Coordinate) :
    (code n c).head? = some (symbol (position c >>> 59)) := by
  obtain ⟨m, rfl⟩ := Nat.exists_eq_add_of_le' h
  simp [code, symbols, List.range_succ_eq_map]

/-! ## Sharing -/

theorem interleave_lt (n a b : ℕ) : interleave n a b < 4 ^ n := by
  induction n generalizing a b with
  | zero => simp [interleave]
  | succ n ih =>
    have := ih (a / 2) (b / 2)
    rw [interleave, pow_succ]
    omega

theorem position_lt (c : Coordinate) : position c < 2 ^ 64 :=
  (interleave_lt 32 _ _).trans_le (by decide)

theorem symbols_eq_iff {n x y : ℕ} (hn : n ≤ 12) (hx : x < 2 ^ 64) (hy : y < 2 ^ 64) :
    symbols n x = symbols n y ↔ x >>> (64 - 5 * n) = y >>> (64 - 5 * n) := by
  induction n with
  | zero =>
    rw [Nat.shiftRight_eq_div_pow, Nat.shiftRight_eq_div_pow, Nat.div_eq_of_lt hx,
      Nat.div_eq_of_lt hy]
    simp [symbols]
  | succ n ih =>
    have hlen : (symbols n x).length = (symbols n y).length := by simp [symbols]
    have hshift : ∀ z : ℕ, z >>> (64 - 5 * n) = z >>> (59 - 5 * n) / 32 := by
      intro z
      rw [show 64 - 5 * n = 59 - 5 * n + 5 by omega, Nat.shiftRight_add,
        Nat.shiftRight_eq_div_pow _ 5]
    have happend : ∀ s t : Char, symbols n x ++ [s] = symbols n y ++ [t] ↔
        symbols n x = symbols n y ∧ s = t := by
      intro s t
      constructor
      · intro h
        simpa using List.append_inj h hlen
      · rintro ⟨hxy, hst⟩
        rw [hxy, hst]
    rw [symbols_succ, symbols_succ, happend, ih (by omega), symbol_eq_iff, hshift, hshift,
      show 64 - 5 * (n + 1) = 59 - 5 * n by omega]
    -- A number is its quotient and its remainder by 32.
    omega

/-! ## Codes between codes -/

section between

variable {a b c : Coordinate} (ha : a.Encodes) (hb : b.Encodes) (hc : c.Encodes) (hab : a.Le b)
  (hbc : b.Le c)

include ha hb hc hab hbc

theorem position_shiftRight_between {j : ℕ} (h : position a >>> j = position c >>> j) :
    position a >>> j = position b >>> j :=
  interleave_shiftRight_between (word_le_word ha.1 hb.1 hab.1) (word_le_word hb.1 hc.1 hbc.1)
    (word_lt _ _) (word_le_word ha.2 hb.2 hab.2) (word_le_word hb.2 hc.2 hbc.2) (word_lt _ _) h

/-- **Sharing.** The symbols that the codes of two corners share begin the code of every coordinate
between the corners. -/
theorem code_between {n : ℕ} (hn : n ≤ 12) (h : code n a = code n c) : code n a = code n b := by
  rw [code, code, symbols_eq_iff hn (position_lt a) (position_lt c)] at h
  rw [code, code, symbols_eq_iff hn (position_lt a) (position_lt b)]
  exact position_shiftRight_between ha hb hc hab hbc h

end between

end Geohash

end GeoPartition
