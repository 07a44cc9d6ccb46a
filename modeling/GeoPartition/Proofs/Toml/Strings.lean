import GeoPartition.Proofs.Toml.Blanks

/-!
# Strings of TOML

A string stands on one line between two quotes, or on several lines between triple quotes. Between
double quotes a backslash begins an escape; between single quotes every character stands for itself.

**Theorem (`IsString.string?`).** Every string is read, in all four forms, in front of any text that
does not begin with a quote.

Two scanners read the strings of several lines, one for each quote. What they have in common is
enough to see that they stop at the right quotes (`ScansLines`): up to two quotes may stand anywhere
in such a string, also in front of the three that close it.
-/

namespace GeoPartition.Toml

/-! ## Escapes -/

/-- The letters that may stand behind a backslash, with what they stand for. -/
def escapes : List (Char × Char) :=
  [('b', '\x08'), ('t', '\t'), ('n', '\n'), ('f', '\x0c'), ('r', '\r'), ('"', '"'), ('\\', '\\')]

/-- What may stand behind a backslash, and the character it stands for. -/
inductive IsEscape : List Char → Char → Prop
  | letter {e c : Char} (h : (e, c) ∈ escapes) : IsEscape [e] c
  | short {a b c d : Char} {n : ℕ} (hx : Text.hex? [a, b, c, d] = some n) (hn : n.isValidChar) :
      IsEscape ['u', a, b, c, d] (Char.ofNat n)
  | long {a b c d e f g h : Char} {n : ℕ} (hx : Text.hex? [a, b, c, d, e, f, g, h] = some n)
      (hn : n.isValidChar) : IsEscape ['U', a, b, c, d, e, f, g, h] (Char.ofNat n)

theorem IsEscape.basicString? {e : List Char} {x : Char} (h : IsEscape e x) (s : List Char) :
    basicString? ('\\' :: (e ++ s)) = prepend [x] (basicString? s) := by
  cases h with
  | letter h =>
    simp only [escapes, List.mem_cons, List.not_mem_nil, or_false, Prod.mk.injEq] at h
    rcases h with ⟨rfl, rfl⟩ | ⟨rfl, rfl⟩ | ⟨rfl, rfl⟩ | ⟨rfl, rfl⟩ | ⟨rfl, rfl⟩ | ⟨rfl, rfl⟩ |
      ⟨rfl, rfl⟩ <;> rfl
  | short hx hn => simp [Toml.basicString?, hx, ofCodePoint?, hn]
  | long hx hn => simp [Toml.basicString?, hx, ofCodePoint?, hn]

theorem IsEscape.basicLines? {e : List Char} {x : Char} (h : IsEscape e x) (joining : Bool)
    (s : List Char) :
    basicLines? joining ('\\' :: (e ++ s)) = prepend [x] (basicLines? false s) := by
  cases h with
  | letter h =>
    simp only [escapes, List.mem_cons, List.not_mem_nil, or_false, Prod.mk.injEq] at h
    rcases h with ⟨rfl, rfl⟩ | ⟨rfl, rfl⟩ | ⟨rfl, rfl⟩ | ⟨rfl, rfl⟩ | ⟨rfl, rfl⟩ | ⟨rfl, rfl⟩ |
      ⟨rfl, rfl⟩ <;> rfl
  | short hx hn => simp [Toml.basicLines?, hx, ofCodePoint?, hn]
  | long hx hn => simp [Toml.basicLines?, hx, ofCodePoint?, hn]

/-! ## Strings on one line -/

/-- What stands between the double quotes of a string on one line, and its text. -/
inductive IsBasic : List Char → List Char → Prop
  | empty : IsBasic [] []
  | plain {c : Char} {s t : List Char} (hc : isCommentChar c) (hquote : c ≠ '"')
      (hslash : c ≠ '\\') (h : IsBasic s t) : IsBasic (c :: s) (c :: t)
  | escaped {e s t : List Char} {c : Char} (he : IsEscape e c) (h : IsBasic s t) :
      IsBasic ('\\' :: (e ++ s)) (c :: t)

/-- A text without quotes and backslashes stands for itself. -/
theorem isBasic_self {s : List Char} (h : ∀ c ∈ s, isCommentChar c ∧ c ≠ '"' ∧ c ≠ '\\') :
    IsBasic s s := by
  induction s with
  | nil => exact .empty
  | cons c s ih =>
    obtain ⟨⟨hc, hquote, hslash⟩, hs⟩ := List.forall_mem_cons.1 h
    exact .plain hc hquote hslash (ih hs)

/-- What stands between the single quotes of a string on one line. -/
def IsLiteral (s : List Char) : Prop := ∀ c ∈ s, isCommentChar c ∧ c ≠ '\''

theorem basicString?_append {s t : List Char} (h : IsBasic s t) (rest : List Char) :
    basicString? (s ++ '"' :: rest) = some (t, rest) := by
  induction h with
  | empty => rfl
  | @plain c s t hc hquote hslash _ ih =>
    rw [List.cons_append, basicString?]
    · simp [hc, hslash, ih, prepend]
    all_goals simp_all
  | @escaped e s t c he _ ih =>
    rw [List.cons_append, List.append_assoc, he.basicString?, ih]
    rfl

theorem literalString?_append {s : List Char} (h : IsLiteral s) (rest : List Char) :
    literalString? (s ++ '\'' :: rest) = some (s, rest) := by
  induction s with
  | nil => rfl
  | cons c s ih =>
    obtain ⟨⟨hc, hquote⟩, hs⟩ := List.forall_mem_cons.1 h
    rw [List.cons_append, literalString?]
    · simp [hc, ih hs, prepend]
    · simpa using hquote

/-! ## Strings on several lines -/

/-- What may stand between triple double quotes, apart from quotes. A backslash in front of a line
end joins the lines. -/
inductive IsBasicItem : List Char → Prop
  | plain {c : Char} (hc : isCommentChar c) (hquote : c ≠ '"') (hslash : c ≠ '\\') :
      IsBasicItem [c]
  | newline {e : List Char} (he : IsNewline e) : IsBasicItem e
  | escaped {e : List Char} {c : Char} (he : IsEscape e c) : IsBasicItem ('\\' :: e)
  | joined {b e : List Char} (hb : IsBlanks b) (he : IsNewline e) : IsBasicItem ('\\' :: (b ++ e))

/-- What may stand between triple single quotes, apart from quotes. -/
inductive IsLiteralItem : List Char → Prop
  | plain {c : Char} (hc : isCommentChar c) (hquote : c ≠ '\'') : IsLiteralItem [c]
  | newline {e : List Char} (he : IsNewline e) : IsLiteralItem e

/-- What stands between triple quotes: items, with one or two quotes in front of any of them. -/
inductive AreLines (quote : Char) (IsItem : List Char → Prop) : List Char → Prop
  | empty : AreLines quote IsItem []
  | item {i s : List Char} (hi : IsItem i) (h : AreLines quote IsItem s) :
      AreLines quote IsItem (i ++ s)
  | quoted {q i s : List Char} (hq : q = [quote] ∨ q = [quote, quote]) (hi : IsItem i)
      (h : AreLines quote IsItem s) : AreLines quote IsItem (q ++ (i ++ s))

/-- A string between triple quotes; up to two quotes may stand in front of the three at its end. -/
inductive IsLines (quote : Char) (IsItem : List Char → Prop) : List Char → Prop
  | mk {s q : List Char} (h : AreLines quote IsItem s)
      (hq : q = [] ∨ q = [quote] ∨ q = [quote, quote]) :
      IsLines quote IsItem (quote :: quote :: quote :: (s ++ (q ++ [quote, quote, quote])))

theorem prepend_nil (r : Option (List Char × List Char)) : prepend [] r = r := by
  cases r <;> rfl

theorem prepend_some (front s rest : List Char) :
    prepend front (some (s, rest)) = some (front ++ s, rest) := rfl

theorem closingQuotes_append {quote : Char} {q rest : List Char}
    (hq : q = [] ∨ q = [quote] ∨ q = [quote, quote]) (hrest : rest.head? ≠ some quote) :
    closingQuotes quote (q ++ rest) = (q, rest) := by
  have hstop : ∀ n, (rest.take n).takeWhile (· = quote) = [] := by
    intro n
    cases rest with
    | nil => simp
    | cons c rest =>
      have hc : c ≠ quote := fun h => hrest (by rw [h]; rfl)
      cases n <;> simp [hc]
  rcases hq with rfl | rfl | rfl
  · simp [closingQuotes, hstop]
  · simp [closingQuotes, hstop]
  · simp [closingQuotes]

/-- What reading the strings between triple quotes of either kind has in common. The flag of the
scanner tells whether lines are being joined. -/
structure ScansLines (quote : Char) (IsItem : List Char → Prop)
    (scanner : Bool → List Char → Option (List Char × List Char)) : Prop where
  close : ∀ j s, scanner j (quote :: quote :: quote :: s) = some (closingQuotes quote s)
  single : ∀ j s, (∀ r, s ≠ quote :: quote :: r) →
    scanner j (quote :: s) = prepend [quote] (scanner false s)
  item : ∀ i, IsItem i → ∀ j, ∃ t j', ∀ s, scanner j (i ++ s) = prepend t (scanner j' s)
  head : ∀ i, IsItem i → ∃ c s, i = c :: s ∧ c ≠ quote
  newline : ∀ i, IsItem i → (∀ s, newline? (i ++ s) = some s) ∨ ∀ s, newline? (i ++ s) = none
  noNewline : ∀ s, newline? (quote :: s) = none

section lines

variable {quote : Char} {IsItem : List Char → Prop}
  {scanner : Bool → List Char → Option (List Char × List Char)}
  (h : ScansLines quote IsItem scanner)
  {s : List Char}

include h

/-- One or two quotes in front of an item are no end. -/
theorem ScansLines.quoted {q i : List Char} (hq : q = [quote] ∨ q = [quote, quote])
    (hi : IsItem i) (j : Bool) (s : List Char) :
    scanner j (q ++ (i ++ s)) = prepend q (scanner false (i ++ s)) := by
  obtain ⟨c, i, rfl, hc⟩ := h.head i hi
  rw [List.cons_append]
  rcases hq with rfl | rfl
  · rw [List.singleton_append, h.single j]
    intro r hr
    exact hc (List.cons.inj hr).1
  · rw [List.cons_append, List.singleton_append, h.single j, h.single false]
    · cases scanner false (c :: (i ++ s)) <;> rfl
    · intro r hr
      exact hc (List.cons.inj hr).1
    · intro r hr
      exact hc (List.cons.inj (List.cons.inj hr).2).1

/-- **What stands between triple quotes** is read up to them. -/
theorem AreLines.scan (hs : AreLines quote IsItem s) {q : List Char}
    (hq : q = [] ∨ q = [quote] ∨ q = [quote, quote]) (j : Bool) :
    ∃ t, ∀ rest : List Char, rest.head? ≠ some quote →
      scanner j (s ++ (q ++ quote :: quote :: quote :: rest)) = some (t, rest) := by
  induction hs generalizing j with
  | empty =>
    refine ⟨q, fun rest hrest => ?_⟩
    have hclose := h.close j (q ++ rest)
    rw [closingQuotes_append hq hrest] at hclose
    rcases hq with rfl | rfl | rfl <;> exact hclose
  | @item i s hi _ ih =>
    obtain ⟨front, j', hscan⟩ := h.item i hi j
    obtain ⟨t, ht⟩ := ih j'
    refine ⟨front ++ t, fun rest hrest => ?_⟩
    rw [List.append_assoc, hscan, ht rest hrest, prepend_some]
  | @quoted q' i s hq' hi _ ih =>
    obtain ⟨front, j', hscan⟩ := h.item i hi false
    obtain ⟨t, ht⟩ := ih j'
    refine ⟨q' ++ (front ++ t), fun rest hrest => ?_⟩
    rw [List.append_assoc, List.append_assoc, h.quoted hq' hi, hscan, ht rest hrest, prepend_some,
      prepend_some]

/-- A line end behind the opening quotes is one item of the string. -/
theorem AreLines.dropNewline (hs : AreLines quote IsItem s) : ∃ s', AreLines quote IsItem s' ∧
    ∀ rest, dropNewline (s ++ quote :: rest) = s' ++ quote :: rest := by
  cases hs with
  | empty =>
    refine ⟨[], .empty, fun rest => ?_⟩
    rw [List.nil_append, Toml.dropNewline, h.noNewline, Option.getD_none]
  | @item i s hi hs =>
    rcases h.newline i hi with hnewline | hnone
    · refine ⟨s, hs, fun rest => ?_⟩
      rw [List.append_assoc, Toml.dropNewline, hnewline, Option.getD_some]
    · refine ⟨i ++ s, .item hi hs, fun rest => ?_⟩
      rw [List.append_assoc, Toml.dropNewline, hnone, Option.getD_none]
  | @quoted q i s hq hi hs =>
    refine ⟨q ++ (i ++ s), .quoted hq hi hs, fun rest => ?_⟩
    have hnone : newline? (q ++ (i ++ s) ++ quote :: rest) = none := by
      rcases hq with rfl | rfl <;> exact h.noNewline _
    rw [Toml.dropNewline, hnone, Option.getD_none]

theorem IsLines.scan (hs : IsLines quote IsItem s) : ∃ t, ∀ rest, rest.head? ≠ some quote →
    ∃ body, s ++ rest = quote :: quote :: quote :: body ∧
      scanner false (Toml.dropNewline body) = some (t, rest) := by
  obtain @⟨s, q, hs, hq⟩ := hs
  obtain ⟨s', hs', hdrop⟩ := hs.dropNewline h
  obtain ⟨t, ht⟩ := hs'.scan h hq false
  refine ⟨t, fun rest hrest => ⟨s ++ (q ++ quote :: quote :: quote :: rest), by simp, ?_⟩⟩
  rw [← ht rest hrest]
  congr 1
  -- Quotes stand behind the items, whether or not the string ends in some.
  rcases hq with rfl | rfl | rfl <;> exact hdrop _

end lines

theorem newline?_append {e : List Char} (he : IsNewline e) (s : List Char) :
    newline? (e ++ s) = some s := by
  cases he <;> rfl

theorem newline?_cons {c : Char} (hfeed : c ≠ '\n') (hcarriage : c ≠ '\r') (s : List Char) :
    newline? (c :: s) = none := by
  simp [newline?, hfeed, hcarriage]

theorem newline?_plain {c : Char} (hc : isCommentChar c) (s : List Char) :
    newline? (c :: s) = none :=
  newline?_cons (Text.ne_of_class hc (by decide)) (Text.ne_of_class hc (by decide)) s

theorem isLineEnd_append {b e : List Char} (hb : IsBlanks b) (he : IsNewline e) (s : List Char) :
    isLineEnd (b ++ (e ++ s)) := by
  unfold isLineEnd
  rw [skipBlanks_append hb]
  cases he <;> rfl

/-- Joining lines passes over blanks and line ends. -/
theorem basicLines?_joining {b e : List Char} (hb : IsBlanks b) (he : IsNewline e)
    (s : List Char) : basicLines? true (b ++ (e ++ s)) = basicLines? true s := by
  induction b with
  | nil => cases he <;> rfl
  | cons c b ih =>
    obtain ⟨hc, hb⟩ := List.forall_mem_cons.1 hb
    have hcases : c = ' ' ∨ c = '\t' := by
      simpa [isBlank] using hc
    rw [← ih hb]
    rcases hcases with rfl | rfl <;> rfl

/-- A character that stands for itself, unless it is passed over between two lines. -/
theorem basicLines?_plain {c : Char} (hc : isCommentChar c) (hquote : c ≠ '"') (hslash : c ≠ '\\')
    (j : Bool) (s : List Char) : basicLines? j (c :: s) =
      if j && isBlank c then basicLines? true s else prepend [c] (basicLines? false s) := by
  have hfeed : c ≠ '\n' := Text.ne_of_class hc (by decide)
  have hcarriage : c ≠ '\r' := Text.ne_of_class hc (by decide)
  rw [basicLines?]
  · simp [hc, hslash]
  all_goals simp [hquote, hslash, hfeed, hcarriage]

theorem basicLines?_joined {b e : List Char} (hb : IsBlanks b) (he : IsNewline e) (j : Bool)
    (s : List Char) : basicLines? j ('\\' :: (b ++ (e ++ s))) = basicLines? true s := by
  have hend := isLineEnd_append hb he s
  rw [← basicLines?_joining hb he]
  obtain ⟨c, r, hcons, hu, hU⟩ : ∃ c r, b ++ (e ++ s) = c :: r ∧ c ≠ 'u' ∧ c ≠ 'U' := by
    cases b with
    | nil => cases he <;> exact ⟨_, _, rfl, by decide, by decide⟩
    | cons c b =>
      have hc : isBlank c := hb c List.mem_cons_self
      exact ⟨c, _, rfl, Text.ne_of_class hc (by decide), Text.ne_of_class hc (by decide)⟩
  rw [hcons] at hend ⊢
  rw [basicLines?]
  · simp [hend]
  · simp [hu]
  · simp [hU]

theorem scansLines_basic : ScansLines '"' IsBasicItem basicLines? where
  close j s := rfl
  single j s hs := by
    rw [basicLines?]
    · simp [isBlank, isCommentChar]
    · intro r _ hr
      exact hs r hr
    all_goals simp
  item i hi j := by
    cases hi with
    | @plain c hc hquote hslash =>
      have hplain := basicLines?_plain hc hquote hslash j
      split_ifs at hplain with hjoined
      · refine ⟨[], true, fun s => ?_⟩
        rw [prepend_nil]
        exact hplain s
      · exact ⟨[c], false, hplain⟩
    | newline he =>
      cases j with
      | true => exact ⟨[], true, fun s => by cases he <;> exact (prepend_nil _).symm⟩
      | false => exact ⟨['\n'], false, fun s => by cases he <;> rfl⟩
    | escaped he => exact ⟨_, false, he.basicLines? j⟩
    | @joined b e hb he =>
      refine ⟨[], true, fun s => ?_⟩
      rw [prepend_nil, List.cons_append, List.append_assoc]
      exact basicLines?_joined hb he j s
  head i hi := by
    cases hi with
    | plain _ hquote _ => exact ⟨_, _, rfl, hquote⟩
    | newline he => cases he <;> exact ⟨_, _, rfl, by decide⟩
    | escaped _ => exact ⟨_, _, rfl, by decide⟩
    | joined _ _ => exact ⟨_, _, rfl, by decide⟩
  newline i hi := by
    cases hi with
    | plain hc _ _ => exact .inr (newline?_plain hc)
    | newline he => exact .inl (newline?_append he)
    | escaped _ => exact .inr fun _ => rfl
    | joined _ _ => exact .inr fun _ => rfl
  noNewline s := rfl

theorem scansLines_literal : ScansLines '\'' IsLiteralItem fun _ => literalLines? where
  close _ s := rfl
  single _ s hs := by
    rw [literalLines?]
    · simp [isCommentChar]
    · intro r _ hr
      exact hs r hr
    · simp
  item i hi _ := by
    cases hi with
    | @plain c hc hquote =>
      refine ⟨[c], false, fun s => ?_⟩
      rw [List.singleton_append, literalLines?]
      · simp [hc]
      · simp [hquote]
      · simp [Text.ne_of_class hc (show isCommentChar '\r' = false by decide)]
    | newline he => exact ⟨['\n'], false, fun s => by cases he <;> rfl⟩
  head i hi := by
    cases hi with
    | plain _ hquote => exact ⟨_, _, rfl, hquote⟩
    | newline he => cases he <;> exact ⟨_, _, rfl, by decide⟩
  newline i hi := by
    cases hi with
    | plain hc _ => exact .inr (newline?_plain hc)
    | newline he => exact .inl (newline?_append he)
  noNewline s := rfl

/-! ## Strings -/

/-- A string in any of its forms. -/
inductive IsString : List Char → Prop
  | basic {s t : List Char} (h : IsBasic s t) : IsString ('"' :: (s ++ ['"']))
  | literal {s : List Char} (h : IsLiteral s) : IsString ('\'' :: (s ++ ['\'']))
  | basicLines {s : List Char} (h : IsLines '"' IsBasicItem s) : IsString s
  | literalLines {s : List Char} (h : IsLines '\'' IsLiteralItem s) : IsString s

/-- **Strings** are read in all their forms. -/
theorem IsString.string? {s : List Char} (h : IsString s) : ∃ t, ∀ rest : List Char,
    rest.head? ≠ some '"' → rest.head? ≠ some '\'' → string? (s ++ rest) = some (t, rest) := by
  cases h with
  | @basic s t h =>
    refine ⟨t, fun rest hrest _ => ?_⟩
    rw [List.cons_append, List.append_assoc, List.singleton_append, Toml.string?,
      basicString?_append h]
    -- Two quotes are an empty string, unless a third one follows.
    cases h with
    | empty =>
      intro r hr
      rw [List.nil_append] at hr
      exact hrest (by rw [(List.cons.inj hr).2, List.head?_cons])
    | plain _ hquote _ _ =>
      intro r hr
      exact hquote (List.cons.inj hr).1
    | escaped _ _ => simp
  | @literal s h =>
    refine ⟨s, fun rest _ hrest => ?_⟩
    rw [List.cons_append, List.append_assoc, List.singleton_append, Toml.string?,
      literalString?_append h]
    intro r hr
    cases s with
    | nil =>
      rw [List.nil_append] at hr
      exact hrest (by rw [(List.cons.inj hr).2, List.head?_cons])
    | cons c s => exact (h c List.mem_cons_self).2 (List.cons.inj hr).1
  | basicLines h =>
    obtain ⟨t, ht⟩ := h.scan scansLines_basic
    refine ⟨t, fun rest hrest _ => ?_⟩
    obtain ⟨body, hbody, hscan⟩ := ht rest hrest
    rw [hbody]
    exact hscan
  | literalLines h =>
    obtain ⟨t, ht⟩ := h.scan scansLines_literal
    refine ⟨t, fun rest _ hrest => ?_⟩
    obtain ⟨body, hbody, hscan⟩ := ht rest hrest
    rw [hbody]
    exact hscan

end GeoPartition.Toml
