import GeoPartition.Json.Decode
import GeoPartition.Proofs.Json.Spelling
import GeoPartition.Proofs.Json.Spells
import GeoPartition.Proofs.Text.Digits

/-!
# The grammar of JSON

**Theorem (`IsValue.spells`).** Every value by the rules of the notation spells a draft that readers
pass over without a fault, in whatever layout it is written and however deep it nests.

The grammar is that of the notation, rule by rule: words, strings, numbers in their four parts,
arrays and objects with blanks around every item. What an object is made of is given by the texts of
its values, so whoever reads some of its members need not know what the others are
(`IsObject.spells`).
-/

namespace GeoPartition.Json

open Text (splitDigits splitSign)

/-! ## Numbers -/

/-- One or more digits. -/
def IsDigits (ds : List Char) : Prop := ds ≠ [] ∧ ∀ c ∈ ds, c.isDigit

/-- The digits of a natural number: a zero in front stands alone. -/
def IsWhole (ds : List Char) : Prop := IsDigits ds ∧ (ds.head? = some '0' → ds = ['0'])

/-- The fraction of a number, if it has one. -/
inductive IsFraction : List Char → Prop
  | absent : IsFraction []
  | digits {ds : List Char} (h : IsDigits ds) : IsFraction ('.' :: ds)

/-- The exponent of a number, if it has one. -/
inductive IsExponent : List Char → Prop
  | absent : IsExponent []
  | digits {e : Char} {sign ds : List Char} (he : e = 'e' ∨ e = 'E')
      (hsign : sign ∈ [[], ['+'], ['-']]) (h : IsDigits ds) : IsExponent (e :: (sign ++ ds))

inductive IsNumber : List Char → Prop
  | parts {minus whole fraction exponent : List Char} (hminus : minus ∈ [[], ['-']])
      (hwhole : IsWhole whole) (hfraction : IsFraction fraction) (hexponent : IsExponent exponent) :
      IsNumber (minus ++ (whole ++ (fraction ++ exponent)))

theorem IsDigits.exists_cons {ds : List Char} (h : IsDigits ds) :
    ∃ d rest, ds = d :: rest ∧ d.isDigit := by
  obtain ⟨d, rest, rfl⟩ := List.exists_cons_of_ne_nil h.1
  exact ⟨d, rest, rfl, h.2 d List.mem_cons_self⟩

theorem splitSign_append {sign ds : List Char} (hsign : sign ∈ [[], ['+'], ['-']])
    (h : IsDigits ds) (rest : List Char) :
    splitSign (sign ++ (ds ++ rest)) = (decide (sign = ['-']), ds ++ rest) := by
  obtain ⟨d, more, rfl, hd⟩ := h.exists_cons
  simp only [List.mem_cons, List.not_mem_nil, or_false] at hsign
  rcases hsign with rfl | rfl | rfl
  · rw [List.nil_append, List.cons_append, splitSign]
    · rfl
    · rintro _ ⟨⟩
      cases hd
    · rintro _ ⟨⟩
      cases hd
  · rfl
  · rfl

/-- What may stand behind the digits of a number. -/
theorem splitDigits_stops {ds rest : List Char} (h : IsDigits ds) (hrest : Stops rest) :
    splitDigits (ds ++ rest) = (ds, rest) :=
  Text.splitDigits_append h.2 fun c hc => (hrest c hc).1

theorem IsExponent.scan {exponent : List Char} (h : IsExponent exponent) (negative : Bool)
    (whole fraction : List Char) (integral : Bool) : ∃ x, ∀ rest, Stops rest →
      scanExponent negative whole fraction integral (exponent ++ rest) = (.number x, rest) := by
  cases h with
  | absent =>
    refine ⟨⟨negative, whole, fraction, 0, integral⟩, fun rest hrest => ?_⟩
    cases rest with
    | nil => rfl
    | cons c rest =>
      obtain ⟨-, -, he, hE⟩ := hrest c rfl
      simp [scanExponent, he, hE]
  | @digits e sign ds he hsign hds =>
    refine ⟨⟨negative, whole, fraction, if sign = ['-'] then -(Nat.ofDigitChars 10 ds 0 : ℤ) else
      Nat.ofDigitChars 10 ds 0, false⟩, fun rest hrest => ?_⟩
    rw [List.cons_append, List.append_assoc]
    rcases he with rfl | rfl <;>
      simp [scanExponent, splitSign_append hsign hds, splitDigits_stops hds hrest, hds.1]

/-- No digit stands behind the digits of a number. -/
theorem head?_exponent_append {exponent : List Char} (h : IsExponent exponent) {rest : List Char}
    (hrest : Stops rest) : ∀ c ∈ (exponent ++ rest).head?, c.isDigit = false ∧ c ≠ '.' := by
  cases h with
  | absent => exact fun c hc => ⟨(hrest c hc).1, (hrest c hc).2.1⟩
  | digits he _ _ =>
    rintro _ ⟨⟩
    rcases he with rfl | rfl <;> decide

theorem IsFraction.scan {fraction exponent : List Char} (h : IsFraction fraction)
    (hexponent : IsExponent exponent) (negative : Bool) (whole : List Char) : ∃ x, ∀ rest,
      Stops rest →
        scanFraction negative whole (fraction ++ (exponent ++ rest)) = (.number x, rest) := by
  cases h with
  | absent =>
    obtain ⟨x, hx⟩ := hexponent.scan negative whole [] true
    refine ⟨x, fun rest hrest => ?_⟩
    rw [List.nil_append, scanFraction]
    · exact hx rest hrest
    · intro s hs
      exact (head?_exponent_append hexponent hrest '.' (by rw [hs]; rfl)).2 rfl
  | @digits ds hds =>
    obtain ⟨x, hx⟩ := hexponent.scan negative whole ds false
    refine ⟨x, fun rest hrest => ?_⟩
    have hsplit : splitDigits (ds ++ (exponent ++ rest)) = (ds, exponent ++ rest) :=
      Text.splitDigits_append hds.2 fun c hc => (head?_exponent_append hexponent hrest c hc).1
    rw [List.cons_append, scanFraction]
    simp only [hsplit, if_neg hds.1]
    exact hx rest hrest

/-- The digits in front of a number are cut off. -/
theorem IsWhole.scan {whole rest : List Char} (h : IsWhole whole)
    (hrest : ∀ c ∈ rest.head?, c.isDigit = false) (negative : Bool) :
    scanNumber negative (whole ++ rest) = scanFraction negative whole rest := by
  have hzero : ¬ (whole.head? = some '0' ∧ whole ≠ ['0']) := fun h' => h'.2 (h.2 h'.1)
  unfold scanNumber
  rw [Text.splitDigits_append h.1.2 hrest]
  dsimp only
  rw [if_neg h.1.1, if_neg hzero]

theorem isBlank_of_isDigit {c : Char} (h : c.isDigit) : isBlank c = false := by
  have hne {d : Char} (hd : d.isDigit = false) : c ≠ d := Text.ne_of_class h hd
  simp [isBlank, hne (d := ' ') (by decide), hne (d := '\n') (by decide),
    hne (d := '\t') (by decide), hne (d := '\r') (by decide)]

theorem scanToken_digit {c : Char} (h : c.isDigit) (s : List Char) :
    scanToken c s = scanNumber false (c :: s) := by
  unfold scanToken
  split <;> simp_all

/-- A number without a sign is a token of its own. -/
theorem tokens_digit {whole s rest : List Char} {x : Numeral} (h : IsWhole whole)
    (hscan : scanNumber false (whole ++ s) = (.number x, rest)) :
    tokens (whole ++ s) = .number x :: tokens rest := by
  obtain ⟨d, ds, rfl, hd⟩ := h.1.exists_cons
  rw [List.cons_append] at hscan ⊢
  rw [tokens_cons (isBlank_of_isDigit hd), scanToken_digit hd, hscan]

theorem isDigit_head?_fraction_append {fraction exponent rest : List Char}
    (h : IsFraction fraction) (hexponent : IsExponent exponent) (hrest : Stops rest) :
    ∀ c ∈ (fraction ++ (exponent ++ rest)).head?, c.isDigit = false := by
  cases h with
  | absent => exact fun c hc => (head?_exponent_append hexponent hrest c hc).1
  | digits _ =>
    rintro _ ⟨⟩
    rfl

/-- **Numbers** are tokens of their own. -/
theorem IsNumber.exists_token {s : List Char} (h : IsNumber s) : ∃ x, ∀ rest, Stops rest →
    tokens (s ++ rest) = .number x :: tokens rest := by
  obtain @⟨minus, whole, fraction, exponent, hminus, hwhole, hfraction, hexponent⟩ := h
  obtain ⟨x, hx⟩ := hfraction.scan hexponent (decide (minus = ['-'])) whole
  refine ⟨x, fun rest hrest => ?_⟩
  have hscan : scanNumber (decide (minus = ['-'])) (whole ++ (fraction ++ (exponent ++ rest))) =
      (.number x, rest) := by
    rw [hwhole.scan (isDigit_head?_fraction_append hfraction hexponent hrest), hx rest hrest]
  simp only [List.append_assoc]
  simp only [List.mem_cons, List.not_mem_nil, or_false] at hminus
  rcases hminus with rfl | rfl
  · rw [List.nil_append]
    exact tokens_digit hwhole hscan
  · rw [List.singleton_append, tokens_cons (by decide)]
    exact congrArg (fun r => r.1 :: tokens r.2) hscan

/-! ## Arrays and objects -/

/-- The items of an array, one or more, each with blanks around it. -/
inductive AreItems : List Char → List (List Char) → Prop
  | last {s t : List Char} (hs : Padded s t) : AreItems s [t]
  | cons {s t rest : List Char} {ts : List (List Char)} (hs : Padded s t)
      (hrest : AreItems rest ts) : AreItems (s ++ ',' :: rest) (t :: ts)

/-- An array of some values, which are given by their texts. -/
inductive IsArray : List Char → List (List Char) → Prop
  | empty {b : List Char} (hb : IsBlanks b) : IsArray ('[' :: (b ++ [']'])) []
  | items {s : List Char} {ts : List (List Char)} (h : AreItems s ts) :
      IsArray ('[' :: (s ++ [']'])) ts

section

variable {κ : Type} (IsKey : List Char → κ → Prop)

/-- The members of an object, one or more, with blanks around every key and every value. -/
inductive AreMembers : List Char → List (κ × List Char) → Prop
  | last {k q s t : List Char} {key : κ} (hk : Padded k q) (hq : IsKey q key) (hs : Padded s t) :
      AreMembers (k ++ ':' :: s) [(key, t)]
  | cons {k q s t rest : List Char} {key : κ} {ms : List (κ × List Char)} (hk : Padded k q)
      (hq : IsKey q key) (hs : Padded s t) (hrest : AreMembers rest ms) :
      AreMembers (k ++ ':' :: (s ++ ',' :: rest)) ((key, t) :: ms)

/-- An object of some keys with their values, which are given by their texts. -/
inductive IsObject : List Char → List (κ × List Char) → Prop
  | empty {b : List Char} (hb : IsBlanks b) : IsObject ('\x7b' :: (b ++ ['\x7d'])) []
  | members {s : List Char} {ms : List (κ × List Char)} (h : AreMembers IsKey s ms) :
      IsObject ('\x7b' :: (s ++ ['\x7d'])) ms

end

theorem IsQuoted.spellsKey {q : List Char} {l : Lexeme} (h : IsQuoted q l) : SpellsKey q l := by
  obtain ⟨body, hbody, rfl⟩ := h
  intro rest
  rw [List.cons_append, List.append_assoc, tokens_cons (by decide)]
  simp only [scanToken, List.singleton_append, hbody.scanString rest]

theorem IsString.exists_key {q : List Char} {key : String} (h : IsString q key) :
    ∃ l, SpellsKey q l ∧ l.text = .ok key.toList :=
  h.imp fun _ hl => hl.imp_left IsQuoted.spellsKey

section

variable {P : List Char → Draft → Prop}

theorem AreItems.spells {s : List Char} {ts : List (List Char)} (h : AreItems s ts)
    (hts : ∀ t ∈ ts, ∃ d, Spells t d ∧ P t d) :
    ∃ ds, SpellsItems s ds ∧ List.Forall₂ P ts ds := by
  induction h with
  | last hs =>
    obtain ⟨d, hd, hP⟩ := hts _ List.mem_cons_self
    exact ⟨[d], .last (hd.padded hs), .cons hP .nil⟩
  | cons hs _ ih =>
    obtain ⟨⟨d, hd, hP⟩, hts⟩ := List.forall_mem_cons.1 hts
    obtain ⟨ds, hds, hall⟩ := ih hts
    exact ⟨d :: ds, .cons (hd.padded hs) hds, .cons hP hall⟩

/-- **Arrays of values** are read item by item. -/
theorem IsArray.spells {s : List Char} {ts : List (List Char)} (h : IsArray s ts)
    (hts : ∀ t ∈ ts, ∃ d, Spells t d ∧ P t d) :
    ∃ ds, Spells s (.array ds (.ok ())) ∧ List.Forall₂ P ts ds := by
  cases h with
  | empty hb => exact ⟨[], spells_emptyArray hb, .nil⟩
  | items h =>
    obtain ⟨ds, hds, hall⟩ := h.spells hts
    exact ⟨ds, .array hds, hall⟩

end

section

variable {κ : Type} {IsKey : List Char → κ → Prop} {K : κ → Lexeme → Prop}
  {P : κ × List Char → Draft → Prop}

theorem AreMembers.spells {s : List Char} {ms : List (κ × List Char)} (h : AreMembers IsKey s ms)
    (hkey : ∀ {q key}, IsKey q key → ∃ l, SpellsKey q l ∧ K key l)
    (hms : ∀ m ∈ ms, ∃ d, Spells m.2 d ∧ P m d) :
    ∃ ds, SpellsMembers s ds ∧ List.Forall₂ (fun m d => K m.1 d.1 ∧ P m d.2) ms ds := by
  induction h with
  | last hk hq hs =>
    obtain ⟨l, hl, hK⟩ := hkey hq
    obtain ⟨d, hd, hP⟩ := hms _ List.mem_cons_self
    exact ⟨[(l, d)], .last (hl.padded hk) (hd.padded hs), .cons ⟨hK, hP⟩ .nil⟩
  | cons hk hq hs _ ih =>
    obtain ⟨l, hl, hK⟩ := hkey hq
    obtain ⟨⟨d, hd, hP⟩, hms⟩ := List.forall_mem_cons.1 hms
    obtain ⟨ds, hds, hall⟩ := ih hms
    exact ⟨(l, d) :: ds, .cons (hl.padded hk) (hd.padded hs) hds, .cons ⟨hK, hP⟩ hall⟩

/-- **Objects** are read member by member. -/
theorem IsObject.spells {s : List Char} {ms : List (κ × List Char)} (h : IsObject IsKey s ms)
    (hkey : ∀ {q key}, IsKey q key → ∃ l, SpellsKey q l ∧ K key l)
    (hms : ∀ m ∈ ms, ∃ d, Spells m.2 d ∧ P m d) :
    ∃ ds, Spells s (.object ds (.ok ())) ∧
      List.Forall₂ (fun m d => K m.1 d.1 ∧ P m d.2) ms ds := by
  cases h with
  | empty hb => exact ⟨[], spells_emptyObject hb, .nil⟩
  | members h =>
    obtain ⟨ds, hds, hall⟩ := h.spells hkey hms
    exact ⟨ds, .object hds, hall⟩

end

/-! ## Values -/

/-- The values of the notation, to any depth. -/
inductive IsValue : List Char → Prop
  | null : IsValue ['n', 'u', 'l', 'l']
  | true : IsValue ['t', 'r', 'u', 'e']
  | false : IsValue ['f', 'a', 'l', 's', 'e']
  | number {s : List Char} (h : IsNumber s) : IsValue s
  | string {s : List Char} {l : Lexeme} (h : IsQuoted s l) : IsValue s
  | array {s : List Char} {ts : List (List Char)} (h : IsArray s ts) (hts : ∀ t ∈ ts, IsValue t) :
      IsValue s
  | object {s : List Char} {ms : List (Lexeme × List Char)} (h : IsObject IsQuoted s ms)
      (hms : ∀ m ∈ ms, IsValue m.2) : IsValue s

theorem IsQuoted.skim {s : List Char} {l : Lexeme} (h : IsQuoted s l) : l.skim = .ok () := by
  obtain ⟨body, hbody, rfl⟩ := h
  induction hbody with
  | empty => rfl
  | plain _ _ _ _ ih => exact ih
  | escaped _ _ ih => exact ih
  | coded _ _ ih => exact ih

theorem skipItems_eq_ok {ts : List (List Char)} {ds : List Draft}
    (h : List.Forall₂ (fun _ d => d.skip = .ok ()) ts ds) : Draft.skipItems ds = .ok () := by
  induction h with
  | nil => rfl
  | cons hd _ ih =>
    rw [Draft.skipItems, hd]
    exact ih

theorem skipMembers_eq_ok {ms : List (Lexeme × List Char)} {ds : List (Lexeme × Draft)}
    (h : List.Forall₂ (fun _ d => d.1.skim = .ok () ∧ d.2.skip = .ok ()) ms ds) :
    Draft.skipMembers ds = .ok () := by
  induction h with
  | nil => rfl
  | cons hd _ ih =>
    rw [Draft.skipMembers, hd.1]
    show (Draft.skip _ >>= fun _ => Draft.skipMembers _) = _
    rw [hd.2]
    exact ih

/-- **Values are read**, and passed over without a fault. -/
theorem IsValue.spells {s : List Char} (h : IsValue s) : ∃ d, Spells s d ∧ d.skip = .ok () := by
  induction h with
  | null =>
    exact ⟨.null, .of_token (fun rest _ => tokens_cons (by decide) ('u' :: 'l' :: 'l' :: rest))
      fun _ _ => rfl, rfl⟩
  | true =>
    exact ⟨.bool Bool.true,
      .of_token (fun rest _ => tokens_cons (by decide) ('r' :: 'u' :: 'e' :: rest))
      fun _ _ => rfl, rfl⟩
  | false =>
    exact ⟨.bool Bool.false,
      .of_token (fun rest _ => tokens_cons (by decide) ('a' :: 'l' :: 's' :: 'e' :: rest))
      fun _ _ => rfl, rfl⟩
  | number h =>
    obtain ⟨x, hx⟩ := h.exists_token
    exact ⟨.number x, .of_token hx fun _ _ => rfl, rfl⟩
  | string h =>
    exact ⟨.string _, .of_token (fun rest _ => h.spellsKey rest) fun _ _ => rfl, h.skim⟩
  | array h _ ih =>
    obtain ⟨ds, hds, hall⟩ := h.spells (P := fun _ d => d.skip = .ok ()) ih
    refine ⟨_, hds, ?_⟩
    rw [Draft.skip, skipItems_eq_ok hall]
    rfl
  | object h _ ih =>
    obtain ⟨ds, hds, hall⟩ := h.spells (K := fun l l' => l'.skim = .ok ())
      (P := fun _ d => d.skip = .ok ()) (fun hq => ⟨_, hq.spellsKey, hq.skim⟩) ih
    refine ⟨_, hds, ?_⟩
    rw [Draft.skip, skipMembers_eq_ok hall]
    rfl

end GeoPartition.Json
