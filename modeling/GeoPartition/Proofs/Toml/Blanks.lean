import GeoPartition.Proofs.Text.Digits
import GeoPartition.Toml.Lexical

/-!
# Between the words of TOML

Blanks, comments and line ends are passed over, up to the next word. Within a line only blanks may
stand between two words (`skipBlanks_append`); within an array also comments and line ends may
(`skipLines_append`), which together are a gap.

What may come behind a value is a comma, a closing bracket, a comment or a line end (`Ends`). No
value goes on with one of these, and neither with a blank.
-/

namespace GeoPartition.Toml

/-! ## Blanks -/

def IsBlanks (s : List Char) : Prop := ∀ c ∈ s, isBlank c

theorem isBlanks_nil : IsBlanks [] := nofun

theorem isBlanks_blank : IsBlanks [' '] := by
  simp [IsBlanks, isBlank]

theorem skipBlanks_append {b : List Char} (hb : IsBlanks b) (s : List Char) :
    skipBlanks (b ++ s) = skipBlanks s :=
  List.dropWhile_append_of_pos hb

theorem skipBlanks_cons {c : Char} (h : isBlank c = false) (s : List Char) :
    skipBlanks (c :: s) = c :: s := by
  simp [skipBlanks, h]

/-! ## Comments and line ends -/

/-- A comment, if there is one. -/
inductive IsComment : List Char → Prop
  | absent : IsComment []
  | text {s : List Char} (h : ∀ c ∈ s, isCommentChar c) : IsComment ('#' :: s)

/-- A line end. -/
inductive IsNewline : List Char → Prop
  | feed : IsNewline ['\n']
  | carriage : IsNewline ['\r', '\n']

/-- A line ends in front of a text, and what follows it. -/
inductive EndsLine : List Char → List Char → Prop
  | text : EndsLine [] []
  | line {e : List Char} (he : IsNewline e) (rest : List Char) : EndsLine (e ++ rest) rest

theorem EndsLine.eq_nil {rest : List Char} (h : EndsLine [] rest) : rest = [] := by
  generalize hs : [] = s at h
  cases h with
  | text => rfl
  | line he rest => cases he <;> cases hs

theorem skipBlanks_end {c s rest : List Char} (hc : IsComment c) (hs : EndsLine s rest) :
    skipBlanks (c ++ s) = c ++ s := by
  cases hc with
  | text _ => rfl
  | absent =>
    cases hs with
    | text => rfl
    | line he rest => cases he <;> rfl

/-- **The rest of a line** is passed over. -/
theorem lineEnd?_append {b c s rest : List Char} (hb : IsBlanks b) (hc : IsComment c)
    (hs : EndsLine s rest) : lineEnd? (b ++ (c ++ s)) = some rest := by
  unfold lineEnd?
  rw [skipBlanks_append hb, skipBlanks_end hc hs]
  cases hc with
  | absent =>
    cases hs with
    | text => rfl
    | line he rest => cases he <;> rfl
  | text hall =>
    simp only [List.cons_append, List.dropWhile_append_of_pos hall]
    cases hs with
    | text => rfl
    | line he rest => cases he <;> rfl

/-! ## Gaps -/

/-- What may stand between the items of an array: blanks, line ends, and comments up to these. -/
inductive IsGap : List Char → Prop
  | nil : IsGap []
  | blank {c : Char} {s : List Char} (hc : isBlank c) (h : IsGap s) : IsGap (c :: s)
  | line {c e s : List Char} (hc : IsComment c) (he : IsNewline e) (h : IsGap s) :
      IsGap (c ++ (e ++ s))

theorem isGap_blank : IsGap [' '] := .blank rfl .nil

theorem skipLines_comment {s e : List Char} (h : ∀ c ∈ s, isCommentChar c) (he : IsNewline e)
    (rest : List Char) : skipLines true (s ++ (e ++ rest)) = skipLines false rest := by
  induction s with
  | nil => cases he <;> rfl
  | cons c s ih =>
    obtain ⟨hc, hs⟩ := List.forall_mem_cons.1 h
    rw [List.cons_append, skipLines]
    · simp [hc, ih hs]
    · exact Text.ne_of_class hc (by decide)
    · intro s h
      exact absurd h (Text.ne_of_class hc (by decide))

/-- **A gap** is passed over. -/
theorem skipLines_append {g : List Char} (hg : IsGap g) (s : List Char) :
    skipLines false (g ++ s) = skipLines false s := by
  induction hg with
  | nil => rfl
  | @blank c g hc _ ih =>
    rw [List.cons_append, skipLines]
    · simp [Text.ne_of_class hc (show isBlank '#' = false by decide), hc, ih]
    · exact Text.ne_of_class hc (by decide)
    · intro s h
      exact absurd h (Text.ne_of_class hc (by decide))
  | @line c e g hc he _ ih =>
    simp only [List.append_assoc]
    cases hc with
    | text hall =>
      rw [← ih]
      exact skipLines_comment hall he (g ++ s)
    | absent => cases he <;> exact ih

theorem skipLines_cons {c : Char} (hc : c ∉ [' ', '\t', '#', '\n', '\r']) (s : List Char) :
    skipLines false (c :: s) = c :: s := by
  simp only [List.mem_cons, List.not_mem_nil, or_false, not_or] at hc
  obtain ⟨hspace, htab, hcomment, hfeed, hcarriage⟩ := hc
  rw [skipLines]
  · simp [isBlank, hspace, htab, hcomment]
  · exact hfeed
  · intro s h
    exact absurd h hcarriage

/-! ## Behind a value -/

/-- The characters that may come next behind a value, blanks aside. -/
def enders : List Char := [',', ']', '\x7d', '#', '\n', '\r']

/-- What comes next does not belong to a value. -/
def Ends (rest : List Char) : Prop := ∀ c ∈ (skipBlanks rest).head?, c ∈ enders

theorem ends_of_mem {b : List Char} (hb : IsBlanks b) {c : Char} (hc : c ∈ enders)
    (s : List Char) : Ends (b ++ c :: s) := by
  have hblank : isBlank c = false := by
    have hall : enders.all fun c => !isBlank c := rfl
    simpa using List.all_eq_true.1 hall c hc
  intro d hd
  rw [skipBlanks_append hb, skipBlanks_cons hblank, List.head?_cons, Option.mem_some] at hd
  exact hd ▸ hc

/-- A gap behind an item may stand in front of a comma or the closing bracket. -/
theorem ends_gap {g : List Char} (hg : IsGap g) {c : Char} (hc : c ∈ [',', ']']) (s : List Char) :
    Ends (g ++ c :: s) := by
  induction hg with
  | nil =>
    simp only [List.mem_cons, List.not_mem_nil, or_false] at hc
    exact ends_of_mem isBlanks_nil (by rcases hc with rfl | rfl <;> simp [enders]) s
  | @blank d g hd _ ih =>
    intro e he
    rw [List.cons_append, ← List.singleton_append, skipBlanks_append (by simpa [IsBlanks])] at he
    exact ih e he
  | @line d e g hd he _ ih =>
    cases hd with
    | text _ => exact ends_of_mem isBlanks_nil (by simp [enders]) _
    | absent => cases he <;> exact ends_of_mem isBlanks_nil (by simp [enders]) _

theorem ends_line {b c s rest : List Char} (hb : IsBlanks b) (hc : IsComment c)
    (hs : EndsLine s rest) : Ends (b ++ (c ++ s)) := by
  cases hc with
  | text _ => exact ends_of_mem hb (by simp [enders]) _
  | absent =>
    cases hs with
    | text =>
      intro d hd
      rw [List.append_nil, skipBlanks_append hb] at hd
      cases hd
    | line he rest => cases he <;> exact ends_of_mem hb (by simp [enders]) _

/-- Behind a value stands no character of a class that has neither blanks nor any of those that may
come next. -/
theorem Ends.head? {rest : List Char} (h : Ends rest) {p : Char → Bool}
    (hp : (' ' :: '\t' :: enders).all fun c => !p c) : ∀ c ∈ rest.head?, p c = false := by
  have hall : ∀ c ∈ ' ' :: '\t' :: enders, p c = false := by simpa using List.all_eq_true.1 hp
  cases rest with
  | nil => nofun
  | cons c rest =>
    intro d hd
    obtain rfl := Option.some.inj hd
    by_cases hblank : isBlank c
    · simp only [isBlank, Bool.or_eq_true, decide_eq_true_eq] at hblank
      rcases hblank with rfl | rfl <;> exact hall _ (by simp)
    · rw [Bool.not_eq_true] at hblank
      refine hall c (List.mem_cons_of_mem _ (List.mem_cons_of_mem _ (h c ?_)))
      rw [skipBlanks_cons hblank, List.head?_cons, Option.mem_some]

end GeoPartition.Toml
