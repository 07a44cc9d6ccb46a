import Mathlib

/-!
# Texts as bytes

**Theorem (`bytes_lt_bytes_iff`).** The order of texts by the code points of their characters is the
order of their bytes.

The bytes of a character are the digits of its code point, the first one marked by their number, so
characters that differ are told apart inside their bytes (`utf8EncodeChar_append_lt`), whatever
follows them.
-/

namespace GeoPartition.Text

open String (utf8EncodeChar)

/-- The bytes of a text. -/
def bytes (s : String) : List UInt8 := s.toByteArray.data.toList

theorem bytes_eq (s : String) : bytes s = s.toList.flatMap utf8EncodeChar := by
  rw [bytes, ← String.utf8Encode_toList, List.utf8Encode, List.data_toByteArray]

/-- Of two numbers the smaller one has the smaller digit where their digits first differ. -/
theorem digits_lt {m n : ℕ} (h : m < n) :
    m / 262144 < n / 262144 ∨ m / 262144 = n / 262144 ∧
      (m / 4096 % 64 < n / 4096 % 64 ∨ m / 4096 % 64 = n / 4096 % 64 ∧
        (m / 64 % 64 < n / 64 % 64 ∨ m / 64 % 64 = n / 64 % 64 ∧ m % 64 < n % 64)) := by
  have step {a b : ℕ} (hab : a < b) : a / 64 < b / 64 ∨ a / 64 = b / 64 ∧ a % 64 < b % 64 := by
    omega
  have hm : m / 262144 = m / 64 / 64 / 64 ∧ m / 4096 = m / 64 / 64 := by omega
  have hn : n / 262144 = n / 64 / 64 / 64 ∧ n / 4096 = n / 64 / 64 := by omega
  rw [hm.1, hm.2, hn.1, hn.2]
  rcases step h with h1 | ⟨e1, h1⟩
  · rcases step h1 with h2 | ⟨e2, h2⟩
    · rcases step h2 with h3 | ⟨e3, h3⟩
      · exact .inl h3
      · exact .inr ⟨e3, .inl h3⟩
    · exact .inr ⟨congrArg (· / 64) e2, .inr ⟨congrArg (· % 64) e2, .inl h2⟩⟩
  · rw [e1]
    exact .inr ⟨rfl, .inr ⟨rfl, .inr ⟨rfl, h1⟩⟩⟩

/-- **Characters are told apart inside their bytes.** -/
theorem utf8EncodeChar_append_lt {c d : Char} (h : c < d) (x y : List UInt8) :
    utf8EncodeChar c ++ x < utf8EncodeChar d ++ y := by
  have hlt : c.val.toNat < d.val.toNat := h
  have hd : d.val.toNat < 0x110000 := by
    rcases d.valid with hd | hd <;> omega
  have hdigits := digits_lt hlt
  -- No byte runs over, so each of the bytes behind the first is a digit.
  have hfirst {k : ℕ} (hk : k < 0x110000) : (k / 262144 % 8 + 240) % 2 ^ 8 = k / 262144 + 240 := by
    omega
  have hnext (k : ℕ) : (k % 64 + 128) % 2 ^ 8 = k % 64 + 128 := by omega
  unfold utf8EncodeChar
  dsimp only
  split_ifs
  all_goals
    simp only [List.cons_append, List.nil_append, List.cons_lt_cons_iff, UInt8.lt_iff_toNat_lt,
      ← UInt8.toNat_inj, UInt8.toNat_ofNat', hnext, hfirst hd, hfirst (hlt.trans hd)]
    omega

theorem flatMap_utf8EncodeChar_lt {s t : List Char} (h : s < t) :
    s.flatMap utf8EncodeChar < t.flatMap utf8EncodeChar := by
  induction s generalizing t with
  | nil =>
    cases t with
    | nil => exact absurd h (lt_irrefl _)
    | cons d t =>
      obtain ⟨b, bs, hbs⟩ := List.exists_cons_of_length_pos
        (String.length_utf8EncodeChar d ▸ d.utf8Size_pos)
      rw [List.flatMap_cons, hbs]
      exact List.nil_lt_cons _ _
  | cons c s ih =>
    cases t with
    | nil => cases h
    | cons d t =>
      rw [List.flatMap_cons, List.flatMap_cons]
      rcases List.cons_lt_cons_iff.1 h with hcd | ⟨rfl, hst⟩
      · exact utf8EncodeChar_append_lt hcd _ _
      · exact List.append_left_lt (ih hst)

theorem bytes_lt_bytes {s t : String} (h : s < t) : bytes s < bytes t := by
  rw [bytes_eq, bytes_eq]
  exact flatMap_utf8EncodeChar_lt (String.lt_iff_toList_lt.1 h)

/-- **The order of texts is that of their bytes.** -/
theorem bytes_lt_bytes_iff {s t : String} : bytes s < bytes t ↔ s < t := by
  refine ⟨fun h => ?_, bytes_lt_bytes⟩
  rcases lt_trichotomy s t with hst | rfl | hts
  · exact hst
  · exact absurd h (List.lt_irrefl _)
  · exact absurd h (List.lt_asymm (bytes_lt_bytes hts))

end GeoPartition.Text
