import GeoPartition.Proofs.Toml.Grammar
import GeoPartition.Toml.Document

/-!
# The lines of TOML documents

A line holds a key with its value, or the header of a table or of an item in an array of tables, or
nothing. Blanks may stand around every word and a comment behind every line.

**Theorem (`IsDocument.ofText?`).** A document is read as what its lines say, one after the other.
Lines end in either way, and a byte order mark may stand in front.

So what a document means can be said of its lines, and no longer of its text. Whether the lines go
together is another matter, which is decided when each is taken in.
-/

namespace GeoPartition.Toml

/-! ## Lines -/

/-- A line that holds something: a header, or a key with the text of its value. -/
inductive Line
  | header (key : List String)
  | item (key : List String)
  | entry (key : List String) (text : List Char)

/-- A line, up to its end. -/
inductive IsLine : List Char → List Line → Prop
  | blank {b c : List Char} (hb : IsBlanks b) (hc : IsComment c) : IsLine (b ++ c) []
  | header {b b₁ k b₂ b₃ c : List Char} {key : List String} (hb : IsBlanks b) (hb₁ : IsBlanks b₁)
      (hk : IsKey k key) (hb₂ : IsBlanks b₂) (hb₃ : IsBlanks b₃) (hc : IsComment c) :
      IsLine (b ++ '[' :: (b₁ ++ (k ++ (b₂ ++ ']' :: (b₃ ++ c))))) [.header key]
  | item {b b₁ k b₂ b₃ c : List Char} {key : List String} (hb : IsBlanks b) (hb₁ : IsBlanks b₁)
      (hk : IsKey k key) (hb₂ : IsBlanks b₂) (hb₃ : IsBlanks b₃) (hc : IsComment c) :
      IsLine (b ++ '[' :: '[' :: (b₁ ++ (k ++ (b₂ ++ ']' :: ']' :: (b₃ ++ c))))) [.item key]
  | entry {b k b₁ b₂ t b₃ c : List Char} {key : List String} (hb : IsBlanks b) (hk : IsKey k key)
      (hb₁ : IsBlanks b₁) (hb₂ : IsBlanks b₂) (hb₃ : IsBlanks b₃) (hc : IsComment c) :
      IsLine (b ++ (k ++ (b₁ ++ '=' :: (b₂ ++ (t ++ (b₃ ++ c)))))) [.entry key t]

namespace Line

def key : Line → List String
  | header key | item key | entry key _ => key

/-- What a line says, where `value` tells what the texts of values are read as. -/
def statement (value : List Char → Value) : Line → Statement
  | header key => .header key
  | item key => .itemHeader key
  | entry key text => .assignment key (value text)

/-- A line can be read as what it says: its key is not too long, and its value is the one told. -/
structure IsRead (value : List Char → Value) (l : Line) : Prop where
  short : l.key.length ≤ maxDepth
  spells : ∀ key text, l = .entry key text → Spells maxDepth text (value text)

end Line

section

variable {b b₁ k b₂ b₃ c s rest : List Char} {key : List String} (hb : IsBlanks b)
  (hb₁ : IsBlanks b₁) (hk : IsKey k key) (hb₂ : IsBlanks b₂) (hb₃ : IsBlanks b₃)
  (hc : IsComment c) (hs : EndsLine s rest)

include hb hc hs in
theorem statement?_blank (hne : c ++ s ≠ []) :
    statement? (b ++ (c ++ s)) = some (.blank, rest) := by
  unfold statement?
  rw [skipBlanks_append hb, skipBlanks_end hc hs, lineEnd?_append hb hc hs]
  cases hc with
  | text _ => rfl
  | absent =>
    cases hs with
    | text => exact absurd rfl hne
    | line he rest => cases he <;> rfl

include hb₁ hk hb₂ hb₃ hc hs

theorem header?_append (hkey : key.length ≤ maxDepth) {closing : List Char}
    (hclosing : closing = [']'] ∨ closing = [']', ']']) :
    header? closing (b₁ ++ (k ++ (b₂ ++ (closing ++ (b₃ ++ (c ++ s)))))) = some (key, rest) := by
  have hend := lineEnd?_append hb₃ hc hs
  have hread := key?_append hk hb₁ hb₂ (d := ']') (by simp) hkey
  rcases hclosing with rfl | rfl <;>
    simp [header?, hread, hend]

include hb

theorem statement?_header (hkey : key.length ≤ maxDepth) :
    statement? (b ++ '[' :: (b₁ ++ (k ++ (b₂ ++ ']' :: (b₃ ++ (c ++ s)))))) =
      some (.header key, rest) := by
  have hread := header?_append hb₁ hk hb₂ hb₃ hc hs hkey (.inl rfl)
  obtain ⟨d, r, hcons, hd⟩ : ∃ d r, b₁ ++ (k ++ (b₂ ++ ([']'] ++ (b₃ ++ (c ++ s))))) = d :: r ∧
      d ≠ '[' := by
    cases b₁ with
    | nil =>
      obtain ⟨d, t, rfl, hd⟩ := hk.exists_cons
      exact ⟨d, _, rfl, Text.ne_of_class hd (by decide)⟩
    | cons d b₁ => exact ⟨d, _, rfl, Text.ne_of_class (hb₁ d List.mem_cons_self) (by decide)⟩
  rw [hcons] at hread
  rw [List.singleton_append] at hcons
  unfold statement?
  rw [skipBlanks_append hb, skipBlanks_cons (by decide), hcons]
  simp [hd, hread]

theorem statement?_item (hkey : key.length ≤ maxDepth) :
    statement? (b ++ '[' :: '[' :: (b₁ ++ (k ++ (b₂ ++ ']' :: ']' :: (b₃ ++ (c ++ s)))))) =
      some (.itemHeader key, rest) := by
  have hread := header?_append hb₁ hk hb₂ hb₃ hc hs hkey (.inr rfl)
  simp only [List.cons_append, List.nil_append] at hread
  unfold statement?
  rw [skipBlanks_append hb, skipBlanks_cons (by decide)]
  simp [hread]

end

/-- A line that begins like a key is a key with its value. -/
theorem statement?_cons {b : List Char} (hb : IsBlanks b) {d : Char} (hd : opensKey d)
    (s : List Char) : statement? (b ++ d :: s) =
      (key? maxDepth (d :: s)).bind fun q => (char? '=' q.2).bind fun s =>
        (value? (2 * (skipBlanks s).length + 1) maxDepth (skipBlanks s)).bind fun r =>
          (lineEnd? r.2).map fun s => (.assignment q.1 r.1, s) := by
  have hne {c : Char} (hc : opensKey c = false) : d ≠ c := Text.ne_of_class hd hc
  have hmap (q : Option (List Char)) (x : Statement) :
      (q.bind fun s => some (x, s)) = q.map fun s => (x, s) := by
    cases q <;> rfl
  unfold statement?
  rw [skipBlanks_append hb, skipBlanks_cons (isBlank_of_opensKey hd)]
  simp [hne (c := '#') (by decide), hne (c := '\n') (by decide), hne (c := '\r') (by decide),
    hne (c := '[') (by decide), hmap]

section

variable {b k b₁ b₂ t b₃ c s rest : List Char} {key : List String} (hb : IsBlanks b)
  (hk : IsKey k key)

include hb hk

theorem statement?_entry (hb₁ : IsBlanks b₁) (hb₂ : IsBlanks b₂) (hb₃ : IsBlanks b₃)
    (hc : IsComment c) (hs : EndsLine s rest) (hkey : key.length ≤ maxDepth) {v : Value}
    (ht : Spells maxDepth t v) :
    statement? (b ++ (k ++ (b₁ ++ '=' :: (b₂ ++ (t ++ (b₃ ++ (c ++ s))))))) =
      some (.assignment key v, rest) := by
  have hkeys := key?_append hk isBlanks_nil hb₁ (d := '=') (by simp) hkey
    (b₂ ++ (t ++ (b₃ ++ (c ++ s))))
  have hbegins := ht.skipBlanks_append (b₃ ++ (c ++ s))
  have hvalue := ht maxDepth (2 * (t ++ (b₃ ++ (c ++ s))).length + 1) (b₃ ++ (c ++ s)) le_rfl
    (by rw [List.length_append]; omega) (ends_line hb₃ hc hs)
  obtain ⟨d, r, rfl, hd⟩ := hk.exists_cons
  rw [List.nil_append, List.cons_append] at hkeys
  rw [List.cons_append, statement?_cons hb hd, hkeys]
  simp only [Option.bind_some, char?_cons, skipBlanks_append hb₂, hbegins, hvalue,
    lineEnd?_append hb₃ hc hs, Option.map_some]

/-- A line with a key of too many parts is not read. -/
theorem statement?_eq_none_of_key (hkey : maxDepth < key.length) (s : List Char) :
    statement? (b ++ (k ++ s)) = none := by
  have hkeys := key?_eq_none hk isBlanks_nil hkey s
  obtain ⟨d, r, rfl, hd⟩ := hk.exists_cons
  rw [List.nil_append, List.cons_append] at hkeys
  rw [List.cons_append, statement?_cons hb hd, hkeys, Option.bind_none]

/-- A line with a value that cannot be read is not read. -/
theorem statement?_eq_none_of_value (hb₁ : IsBlanks b₁) (hkey : key.length ≤ maxDepth)
    (hvalue : ∀ fuel, value? fuel maxDepth (skipBlanks s) = none) :
    statement? (b ++ (k ++ (b₁ ++ '=' :: s))) = none := by
  have hkeys := key?_append hk isBlanks_nil hb₁ (d := '=') (by simp) hkey s
  obtain ⟨d, r, rfl, hd⟩ := hk.exists_cons
  rw [List.nil_append, List.cons_append] at hkeys
  rw [List.cons_append, statement?_cons hb hd, hkeys]
  simp only [Option.bind_some, char?_cons, hvalue, Option.bind_none]

end

/-! ## Documents -/

/-- Lines with line ends between them. -/
inductive IsLayout : List Char → List Line → Prop
  | last {s : List Char} {ls : List Line} (hs : IsLine s ls) : IsLayout s ls
  | line {s e rest : List Char} {ls more : List Line} (hs : IsLine s ls) (he : IsNewline e)
      (hrest : IsLayout rest more) : IsLayout (s ++ (e ++ rest)) (ls ++ more)

/-- A document; a byte order mark may stand in front. -/
def IsDocument (s : List Char) (ls : List Line) : Prop :=
  ∃ body, IsLayout body ls ∧ (s = body ∨ s = '\uFEFF' :: body)

theorem run_nil {fuel : ℕ} (hfuel : 0 < fuel) (p : Progress) : p.run fuel [] = some p := by
  obtain ⟨fuel, rfl⟩ := Nat.exists_eq_add_of_le' hfuel
  rfl

theorem run_statement {s rest : List Char} {x : Statement} (h : statement? s = some (x, rest))
    (fuel : ℕ) (p : Progress) :
    p.run (fuel + 1) s = (p.step x).bind fun p => p.run fuel rest := by
  have hne : skipBlanks s ≠ [] := by
    intro hs
    unfold statement? at h
    rw [hs] at h
    cases h
  rw [Progress.run, if_neg hne]
  simp only [h, Option.bind_eq_bind, Option.bind_some]

section

variable {value : List Char → Value}

/-- **One line** is taken in as what it says. -/
theorem IsLine.run {s f rest : List Char} {ls : List Line} (h : IsLine s ls)
    (hf : EndsLine f rest) (hread : ∀ l ∈ ls, l.IsRead value) {fuel : ℕ} (hfuel : 0 < fuel)
    (p : Progress) : p.run (fuel + 1) (s ++ f) =
      ((ls.map (Line.statement value)).foldlM Progress.step p).bind fun p => p.run fuel rest := by
  cases h with
  | @blank b c hb hc =>
    rw [List.append_assoc]
    by_cases hend : c ++ f = []
    · -- The text ends with this line, and nothing is left to read.
      obtain ⟨rfl, rfl⟩ := List.append_eq_nil_iff.1 hend
      have hblank : skipBlanks (b ++ ([] ++ [])) = [] := skipBlanks_append hb []
      obtain rfl := hf.eq_nil
      rw [Progress.run, if_pos hblank]
      exact (run_nil hfuel p).symm
    · rw [run_statement (statement?_blank hb hc hf hend)]
      rfl
  | header hb hb₁ hk hb₂ hb₃ hc =>
    obtain ⟨hkey, -⟩ := hread _ List.mem_cons_self
    have hline := run_statement (statement?_header hb hb₁ hk hb₂ hb₃ hc hf hkey) fuel p
    simpa [Line.statement] using hline
  | item hb hb₁ hk hb₂ hb₃ hc =>
    obtain ⟨hkey, -⟩ := hread _ List.mem_cons_self
    have hline := run_statement (statement?_item hb hb₁ hk hb₂ hb₃ hc hf hkey) fuel p
    simpa [Line.statement] using hline
  | entry hb hk hb₁ hb₂ hb₃ hc =>
    obtain ⟨hkey, ht⟩ := hread _ List.mem_cons_self
    have hline := run_statement
      (statement?_entry hb hk hb₁ hb₂ hb₃ hc hf hkey (ht _ _ rfl)) fuel p
    simpa [Line.statement] using hline

theorem IsLine.eq_nil {ls : List Line} (h : IsLine [] ls) : ls = [] := by
  generalize hs : [] = s at h
  cases h with
  | blank _ _ => rfl
  | header => simp at hs
  | item => simp at hs
  | entry => simp at hs

/-- **Lines** are taken in one by one. -/
theorem IsLayout.run {s : List Char} {ls : List Line} (h : IsLayout s ls)
    (hread : ∀ l ∈ ls, l.IsRead value) {fuel : ℕ} (hfuel : s.length < fuel) (p : Progress) :
    p.run fuel s = (ls.map (Line.statement value)).foldlM Progress.step p := by
  induction h generalizing fuel p with
  | @last s ls hs =>
    cases s with
    | nil =>
      obtain rfl := hs.eq_nil
      exact run_nil hfuel p
    | cons c s =>
      obtain ⟨fuel, rfl⟩ := Nat.exists_eq_add_of_le' (Nat.one_le_of_lt hfuel)
      have hpos : 0 < fuel := Nat.lt_of_le_of_lt (Nat.zero_le _) (Nat.lt_of_succ_lt_succ hfuel)
      have hlast := hs.run .text hread hpos p
      rw [List.append_nil] at hlast
      rw [hlast]
      cases (ls.map (Line.statement value)).foldlM Progress.step p with
      | none => rfl
      | some p => exact run_nil hpos p
  | @line s e rest ls more hs he _ ih =>
    obtain ⟨hls, hmore⟩ := List.forall_mem_append.1 hread
    have hpos : 0 < e.length := by cases he <;> simp
    obtain ⟨fuel, rfl⟩ := Nat.exists_eq_add_of_le' (Nat.one_le_of_lt hfuel)
    simp only [List.length_append] at hfuel
    have hlength : rest.length < fuel := by omega
    rw [hs.run (.line he rest) hls (Nat.lt_of_le_of_lt (Nat.zero_le _) hlength) p, List.map_append,
      List.foldlM_append]
    congr 1
    funext q
    exact ih hmore hlength q

end

/-- Does a line begin with a character? -/
def opensLine (c : Char) : Bool := isBlank c || c ∈ ['#', '\n', '\r', '['] || opensKey c

theorem IsLine.head {s : List Char} {ls : List Line} (h : IsLine s ls) :
    ∀ c ∈ s.head?, opensLine c := by
  have hblanks {b s : List Char} (hb : IsBlanks b) (hs : ∀ c ∈ s.head?, opensLine c) :
      ∀ c ∈ (b ++ s).head?, opensLine c := by
    cases b with
    | nil => exact hs
    | cons d b =>
      intro c hc
      obtain rfl := Option.some.inj hc
      simp [opensLine, hb d List.mem_cons_self]
  cases h with
  | blank hb hc =>
    refine hblanks hb fun c hc' => ?_
    cases hc with
    | absent => cases hc'
    | text _ =>
      obtain rfl := Option.some.inj hc'
      rfl
  | header hb _ _ _ _ _ | item hb _ _ _ _ _ =>
    refine hblanks hb fun c hc => ?_
    obtain rfl := Option.some.inj hc
    rfl
  | entry hb hk _ _ _ _ =>
    refine hblanks hb fun c hc => ?_
    obtain ⟨d, t, rfl, hd⟩ := hk.exists_cons
    obtain rfl := Option.some.inj hc
    simp [opensLine, hd]

theorem IsLayout.head {s : List Char} {ls : List Line} (h : IsLayout s ls) :
    ∀ c ∈ s.head?, opensLine c := by
  cases h with
  | last hs => exact hs.head
  | @line s e rest ls more hs he _ =>
    cases s with
    | nil =>
      intro c hc
      cases he <;> obtain rfl := Option.some.inj hc <;> rfl
    | cons c s => exact hs.head

/-- A document that begins with a line is read from its first character on. -/
theorem ofText?_eq {s : List Char} (h : ∀ c ∈ s.head?, opensLine c) : ofText? s =
    (Progress.run (s.length + 1) ⟨[], []⟩ s).map fun p => Node.toValues p.entries := by
  unfold ofText?
  split
  · exact absurd (h _ rfl) (by decide)
  · rfl

/-- **Documents of lines** are read as what the lines say. -/
theorem IsDocument.ofText? {value : List Char → Value} {s : List Char} {ls : List Line}
    (h : IsDocument s ls) (hread : ∀ l ∈ ls, l.IsRead value) :
    Toml.ofText? s = ((ls.map (Line.statement value)).foldlM Progress.step ⟨[], []⟩).map fun p =>
      Node.toValues p.entries := by
  obtain ⟨body, hbody, hs⟩ := h
  have hrun := hbody.run hread (Nat.lt_succ_self body.length) ⟨[], []⟩
  rcases hs with rfl | rfl
  · rw [ofText?_eq hbody.head, hrun]
  · exact congrArg (Option.map fun p => Node.toValues p.entries) hrun

end GeoPartition.Toml
