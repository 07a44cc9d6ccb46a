import GeoPartition.Proofs.Json.Yields

/-!
# Texts that spell a value

A text spells a draft if it is read as that draft wherever it stands, and what follows it is read
as if it stood alone. Single values are spelled by their own tokens; blanks around a value change
nothing (`Spells.padded`), and an array or an object is spelled by its items or members, if each of
them is (`Spells.array`, `Spells.object`). So what a document says is found from its parts, without
regard to its layout.

What follows must not go on with a number: the digits of two numbers would run together.
-/

namespace GeoPartition.Json

/-- No number that ends in front of a text goes on in it. -/
def Stops (rest : List Char) : Prop :=
  ∀ c ∈ rest.head?, c.isDigit = false ∧ c ≠ '.' ∧ c ≠ 'e' ∧ c ≠ 'E'

theorem stops_nil : Stops [] := nofun

theorem stops_cons {c : Char} (hc : c.isDigit = false ∧ c ≠ '.' ∧ c ≠ 'e' ∧ c ≠ 'E')
    (s : List Char) : Stops (c :: s) := by
  rintro _ ⟨⟩
  exact hc

/-! ## Blanks -/

theorem tokens_blank {c : Char} (h : isBlank c) (s : List Char) : tokens (c :: s) = tokens s := by
  rw [tokens, if_pos h]

theorem tokens_cons {c : Char} (h : isBlank c = false) (s : List Char) :
    tokens (c :: s) = (scanToken c s).1 :: tokens (scanToken c s).2 := by
  rw [tokens, if_neg (by simp [h])]

/-- Does a text hold nothing but blanks? -/
def IsBlanks (b : List Char) : Prop := ∀ c ∈ b, isBlank c

theorem isBlanks_nil : IsBlanks [] := by
  simp [IsBlanks]

theorem isBlanks_blank : IsBlanks [' '] := by
  simp [IsBlanks, isBlank]

theorem tokens_blanks {b : List Char} (hb : IsBlanks b) (s : List Char) :
    tokens (b ++ s) = tokens s := by
  induction b with
  | nil => rfl
  | cons c b ih =>
    obtain ⟨hc, hb⟩ := List.forall_mem_cons.1 hb
    rw [List.cons_append, tokens_blank hc, ih hb]

theorem stops_blanks {b : List Char} (hb : IsBlanks b) {s : List Char} (hs : Stops s) :
    Stops (b ++ s) := by
  cases b with
  | nil => exact hs
  | cons c b =>
    have hc : isBlank c := hb c List.mem_cons_self
    simp only [isBlank, Bool.or_eq_true, decide_eq_true_eq] at hc
    refine stops_cons ?_ (b ++ s)
    rcases hc with ((rfl | rfl) | rfl) | rfl <;> decide

/-- A text with blanks around it. -/
def Padded (s t : List Char) : Prop := ∃ b b', IsBlanks b ∧ IsBlanks b' ∧ s = b ++ t ++ b'

theorem padded_self (s : List Char) : Padded s s :=
  ⟨[], [], isBlanks_nil, isBlanks_nil, by simp⟩

/-! ## Values -/

/-- A text has the same tokens wherever it stands. -/
def HasTokens (s : List Char) (ts : List Token) : Prop :=
  ∀ rest, Stops rest → tokens (s ++ rest) = ts ++ tokens rest

/-- A text is read as a draft: it has the same tokens wherever it stands, and these are the draft,
whatever follows them. -/
def Spells (s : List Char) (d : Draft) : Prop := ∃ ts, HasTokens s ts ∧ Yields ts d

theorem Spells.of_token {s : List Char} {t : Token} {d : Draft}
    (htokens : ∀ rest, Stops rest → tokens (s ++ rest) = t :: tokens rest)
    (hvalue : ∀ n tail, Draft.value (n + 1) (t :: tail) = (d, tail)) : Spells s d :=
  ⟨[t], htokens, .of_token hvalue⟩

/-- **Blanks around a value** are not part of it. -/
theorem Spells.padded {s t : List Char} {d : Draft} (h : Spells t d) (hs : Padded s t) :
    Spells s d := by
  obtain ⟨ts, htokens, hvalue⟩ := h
  obtain ⟨b, b', hb, hb', rfl⟩ := hs
  refine ⟨ts, fun rest hrest => ?_, hvalue⟩
  rw [List.append_assoc, List.append_assoc, tokens_blanks hb, htokens _ (stops_blanks hb' hrest),
    tokens_blanks hb']

/-! ## Arrays -/

/-- A text is read as the items of an array: they end where the array is closed. -/
def SpellsItems (s : List Char) (ds : List Draft) : Prop := ∃ ts, HasTokens s ts ∧ YieldsItems ts ds

theorem SpellsItems.last {s : List Char} {d : Draft} (h : Spells s d) : SpellsItems s [d] := by
  obtain ⟨ts, htokens, hvalue⟩ := h
  exact ⟨ts, htokens, .last hvalue⟩

theorem SpellsItems.cons {s rest : List Char} {d : Draft} {ds : List Draft} (h : Spells s d)
    (hrest : SpellsItems rest ds) : SpellsItems (s ++ ',' :: rest) (d :: ds) := by
  obtain ⟨ts, htokens, hvalue⟩ := h
  obtain ⟨us, hus, hitems⟩ := hrest
  refine ⟨ts ++ .comma :: us, fun more hmore => ?_, .cons hvalue hitems⟩
  rw [List.append_assoc, List.cons_append, htokens _ (stops_cons (by decide) _),
    tokens_cons (by decide)]
  simp only [scanToken, hus more hmore, List.append_assoc, List.cons_append]

/-- **Arrays** are spelled by their items. -/
theorem Spells.array {s : List Char} {ds : List Draft} (h : SpellsItems s ds) :
    Spells ('[' :: (s ++ [']'])) (.array ds (.ok ())) := by
  obtain ⟨ts, htokens, hitems⟩ := h
  refine ⟨.openArray :: (ts ++ [.closeArray]), fun rest _ => ?_, .array hitems⟩
  have hclose := htokens (']' :: rest) (stops_cons (by decide) rest)
  rw [tokens_cons (by decide)] at hclose
  rw [List.cons_append, tokens_cons (by decide)]
  simpa [scanToken] using hclose

theorem spells_emptyArray {b : List Char} (hb : IsBlanks b) :
    Spells ('[' :: (b ++ [']'])) (.array [] (.ok ())) := by
  refine ⟨[.openArray, .closeArray], fun rest _ => ?_, yields_emptyArray⟩
  rw [List.cons_append, tokens_cons (by decide)]
  simp only [scanToken, List.append_assoc, List.singleton_append]
  rw [tokens_blanks hb, tokens_cons (by decide)]
  rfl

/-! ## Objects -/

/-- A text is read as a key. -/
def SpellsKey (s : List Char) (key : Lexeme) : Prop :=
  ∀ rest, tokens (s ++ rest) = .string key :: tokens rest

theorem SpellsKey.padded {s t : List Char} {key : Lexeme} (h : SpellsKey t key) (hs : Padded s t) :
    SpellsKey s key := by
  obtain ⟨b, b', hb, hb', rfl⟩ := hs
  intro rest
  rw [List.append_assoc, List.append_assoc, tokens_blanks hb, h, tokens_blanks hb']

theorem SpellsKey.tokens_colon {s : List Char} {key : Lexeme} (h : SpellsKey s key)
    (rest : List Char) : tokens (s ++ ':' :: rest) = .string key :: .colon :: tokens rest := by
  rw [h, tokens_cons (by decide)]
  rfl

/-- A text is read as the members of an object: they end where the object is closed. -/
def SpellsMembers (s : List Char) (ms : List (Lexeme × Draft)) : Prop :=
  ∃ ts, HasTokens s ts ∧ YieldsMembers ts ms

theorem SpellsMembers.padded {s b : List Char} {ms : List (Lexeme × Draft)}
    (h : SpellsMembers s ms) (hb : IsBlanks b) : SpellsMembers (s ++ b) ms := by
  obtain ⟨ts, htokens, hmembers⟩ := h
  refine ⟨ts, fun rest hrest => ?_, hmembers⟩
  rw [List.append_assoc, htokens _ (stops_blanks hb hrest), tokens_blanks hb]

theorem SpellsMembers.last {k s : List Char} {key : Lexeme} {d : Draft} (hk : SpellsKey k key)
    (h : Spells s d) : SpellsMembers (k ++ ':' :: s) [(key, d)] := by
  obtain ⟨ts, htokens, hvalue⟩ := h
  refine ⟨.string key :: .colon :: ts, fun rest hrest => ?_, .last key hvalue⟩
  rw [List.append_assoc, List.cons_append, hk.tokens_colon, htokens rest hrest]
  rfl

theorem SpellsMembers.cons {k s rest : List Char} {key : Lexeme} {d : Draft}
    {ms : List (Lexeme × Draft)} (hk : SpellsKey k key) (h : Spells s d)
    (hrest : SpellsMembers rest ms) :
    SpellsMembers (k ++ ':' :: (s ++ ',' :: rest)) ((key, d) :: ms) := by
  obtain ⟨ts, htokens, hvalue⟩ := h
  obtain ⟨us, hus, hmembers⟩ := hrest
  refine ⟨.string key :: .colon :: (ts ++ .comma :: us), fun more hmore => ?_,
    .cons key hvalue hmembers⟩
  simp only [List.append_assoc, List.cons_append]
  rw [hk.tokens_colon, htokens _ (stops_cons (by decide) _), tokens_cons (by decide)]
  simp only [scanToken, hus more hmore]

/-- **Objects** are spelled by their members. -/
theorem Spells.object {s : List Char} {ms : List (Lexeme × Draft)} (h : SpellsMembers s ms) :
    Spells ('\x7b' :: (s ++ ['\x7d'])) (.object ms (.ok ())) := by
  obtain ⟨ts, htokens, hmembers⟩ := h
  refine ⟨.openObject :: (ts ++ [.closeObject]), fun rest _ => ?_, .object hmembers⟩
  have hclose := htokens ('\x7d' :: rest) (stops_cons (by decide) rest)
  rw [tokens_cons (by decide)] at hclose
  rw [List.cons_append, tokens_cons (by decide)]
  simpa [scanToken] using hclose

theorem spells_emptyObject {b : List Char} (hb : IsBlanks b) :
    Spells ('\x7b' :: (b ++ ['\x7d'])) (.object [] (.ok ())) := by
  refine ⟨[.openObject, .closeObject], fun rest _ => ?_, yields_emptyObject⟩
  rw [List.cons_append, tokens_cons (by decide)]
  simp only [scanToken, List.append_assoc, List.singleton_append]
  rw [tokens_blanks hb, tokens_cons (by decide)]
  rfl

/-! ## Documents -/

/-- **A text that spells a draft is a document**: all of it is read, and nothing is left. -/
theorem Spells.document {s : List Char} {d : Draft} (h : Spells s d) :
    Document.ofText s = ⟨d, .ok ()⟩ := by
  obtain ⟨ts, htokens, hvalue⟩ := h
  have hs : tokens s = ts := by simpa [tokens] using htokens [] stops_nil
  have hroot : Draft.value (2 * ts.length + 1) ts = (d, []) := by
    simpa using hvalue (2 * ts.length + 1) (by omega) []
  simp [Document.ofText, hs, hroot]

theorem Spells.unique {s : List Char} {d d' : Draft} (h : Spells s d) (h' : Spells s d') :
    d = d' := by
  have hboth := h.document.symm.trans h'.document
  injection hboth

end GeoPartition.Json
