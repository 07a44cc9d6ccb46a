import Mathlib
import GeoPartition.Json.Strings
import GeoPartition.Json.Tokens

/-!
# Strings between quotes

The rules of a string say what may stand between its quotes, and the pieces it is read as
(`IsBody`). A string by these rules is scanned up to its closing quote and no further
(`IsBody.scanString`).

A string that is written obeys them (`isBody_escaped`), whatever its characters, and what is read is
the text that was written (`text_spelling`). Characters that are escaped with a letter come back as
characters, the other controls as units of sixteen bits; no unit is half of a surrogate pair.
-/

namespace GeoPartition.Json

/-! ## Scanning -/

/-- What stands between the quotes of a string, and the pieces it is read as. -/
inductive IsBody : List Char → Lexeme → Prop
  | empty : IsBody [] .closed
  | plain {c : Char} {s : List Char} {l : Lexeme} (hquote : c ≠ '"') (hslash : c ≠ '\\')
      (hlow : ¬ c < ' ') (h : IsBody s l) : IsBody (c :: s) (.char c l)
  | escaped {e c : Char} {s : List Char} {l : Lexeme} (he : unescape? e = some c)
      (h : IsBody s l) : IsBody ('\\' :: e :: s) (.char c l)
  | coded {a b c d : Char} {n : ℕ} {s : List Char} {l : Lexeme}
      (hn : Text.hex? [a, b, c, d] = some n) (h : IsBody s l) :
      IsBody ('\\' :: 'u' :: a :: b :: c :: d :: s) (.unit n l)

theorem scanString_plain {c : Char} (hquote : c ≠ '"') (hslash : c ≠ '\\') (hlow : ¬ c < ' ')
    (s : List Char) : scanString (c :: s) = (.char c (scanString s).1, (scanString s).2) := by
  rw [scanString]
  all_goals simp_all

theorem scanString_escaped {e c : Char} (he : unescape? e = some c) (s : List Char) :
    scanString ('\\' :: e :: s) = (.char c (scanString s).1, (scanString s).2) := by
  rw [scanString]
  · simp [he]
  · rintro _ _ _ _ _ rfl
    cases he
  · rintro rfl
    cases he

/-- **A string is scanned** up to its closing quote and no further. -/
theorem IsBody.scanString {s : List Char} {l : Lexeme} (h : IsBody s l) (rest : List Char) :
    scanString (s ++ '"' :: rest) = (l, rest) := by
  induction h with
  | empty => rfl
  | plain hquote hslash hlow _ ih =>
    rw [List.cons_append, scanString_plain hquote hslash hlow, ih]
  | escaped he _ ih => rw [List.cons_append, List.cons_append, scanString_escaped he, ih]
  | coded hn _ ih => simp [Json.scanString, hn, ih]

/-- **What is scanned without a flaw** is a string by the rules. -/
theorem exists_isBody {s rest : List Char} {l : Lexeme} (h : Json.scanString s = (l, rest))
    (hskim : l.skim = .ok ()) : ∃ body, IsBody body l ∧ s = body ++ '"' :: rest := by
  fun_induction Json.scanString s generalizing l rest with
  | case1 =>
    cases h
    cases hskim
  | case2 s =>
    cases h
    exact ⟨[], .empty, rfl⟩
  | case3 =>
    cases h
    cases hskim
  | case4 a b c d s n hn ih =>
    cases h
    obtain ⟨body, hbody, hs⟩ := ih rfl hskim
    exact ⟨'\\' :: 'u' :: a :: b :: c :: d :: body, .coded hn hbody, by simpa using hs⟩
  | case5 =>
    cases h
    cases hskim
  | case6 =>
    cases h
    cases hskim
  | case7 e s _ _ c he l' s' hs ih =>
    cases h
    obtain ⟨body, hbody, rfl⟩ := ih hs hskim
    exact ⟨'\\' :: e :: body, .escaped he hbody, rfl⟩
  | case8 =>
    cases h
    cases hskim
  | case9 =>
    cases h
    cases hskim
  | case10 c s hquote hend _ _ hslash hlow l' s' hs ih =>
    cases h
    obtain ⟨body, hbody, rfl⟩ := ih hs hskim
    refine ⟨c :: body, .plain hquote ?_ hlow hbody, rfl⟩
    rintro rfl
    cases body with
    | nil => exact hslash _ _ rfl rfl
    | cons e body => exact hslash _ _ rfl rfl

/-! ## Writing -/

/-- Is a character written as the unit of its code? -/
def isCoded (c : Char) : Bool := c < ' ' && c ∉ ['\x08', '\x0c', '\n', '\r', '\t']

/-- A text as it is read between quotes. -/
def Lexeme.spelling : List Char → Lexeme
  | [] => closed
  | c :: s => if isCoded c then unit c.toNat (spelling s) else char c (spelling s)

theorem toNat_lt_of_isCoded {c : Char} (h : isCoded c) : c.toNat < 32 := by
  simp only [isCoded, Bool.and_eq_true, decide_eq_true_eq] at h
  exact h.1

/-- The digits of a unit below 32. -/
theorem hex?_code : ∀ n < 32,
    Text.hex? ['0', '0', Nat.digitChar (n / 16), Nat.digitChar (n % 16)] = some n := by
  decide

/-- One character is escaped by the rules. -/
theorem IsBody.escape {s : List Char} {l : Lexeme} (h : IsBody s l) (c : Char) :
    IsBody (escape c ++ s) (if isCoded c then .unit c.toNat l else .char c l) := by
  unfold Json.escape
  split
  iterate 7 exact .escaped rfl h
  rename_i hquote hslash hb hf hn hr ht
  split_ifs with hlow hcoded hcoded
  · exact .coded (hex?_code c.toNat (toNat_lt_of_isCoded hcoded)) h
  · simp_all [isCoded]
  · exact absurd (toNat_lt_of_isCoded hcoded) hlow
  · exact .plain hquote hslash hlow h

/-- **What is written obeys the rules.** -/
theorem isBody_escaped (s : List Char) : IsBody (s.flatMap escape) (.spelling s) := by
  induction s with
  | nil => exact .empty
  | cons c s ih => exact ih.escape c

/-- A unit outside the surrogates is a character. -/
theorem text_unit {n : ℕ} (h : n < 0xd800) (rest : Lexeme) :
    (Lexeme.unit n rest).text = (Char.ofNat n :: ·) <$> rest.text := by
  have hleading : isLeading n = false := by simp [isLeading, h.not_ge]
  have htrailing : isTrailing n = false := by
    simp [isTrailing, show ¬ 0xdc00 ≤ n by omega]
  cases rest <;> simp [Lexeme.text, hleading, htrailing]

/-- **What is scanned is the text.** -/
theorem text_spelling (s : List Char) : (Lexeme.spelling s).text = .ok s := by
  induction s with
  | nil => rfl
  | cons c s ih =>
    rw [Lexeme.spelling]
    split_ifs with hcoded
    · have hlow := toNat_lt_of_isCoded hcoded
      rw [text_unit (by omega), ih, Char.ofNat_toNat]
      rfl
    · rw [Lexeme.text, ih]
      rfl

/-! ## Strings -/

/-- A string between its quotes, and the pieces it is read as. -/
def IsQuoted (s : List Char) (l : Lexeme) : Prop :=
  ∃ body, IsBody body l ∧ s = '"' :: (body ++ ['"'])

theorem isQuoted_quote (s : List Char) : IsQuoted (quote s) (.spelling s) :=
  ⟨_, isBody_escaped s, rfl⟩

/-- A string between its quotes, and what it says. -/
def IsString (s : List Char) (t : String) : Prop := ∃ l, IsQuoted s l ∧ l.text = .ok t.toList

theorem isString_quote (t : String) : IsString (quote t.toList) t :=
  ⟨_, isQuoted_quote t.toList, text_spelling t.toList⟩

end GeoPartition.Json
