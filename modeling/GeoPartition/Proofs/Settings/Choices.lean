import GeoPartition.Proofs.Settings.Toml
import GeoPartition.Proofs.Toml.Limits

/-!
# Documents that make some choices

**Theorem (`ofJson_ofToml_choices`).** A document that chooses some of the settings, each at most
once, in any order and with other members anywhere among them, is read as the settings with these
choices made one by one, in any order. So it is in JSON, and so it is in TOML; what is not chosen
has its default.

Both readers take a document member by member. What they hold after some members are the choices
among them, made over the defaults, so the theorem is an induction on the members (`Makes`).
Choices for different settings can be made in either order (`choose_comm`). Entries that no setting
asks for can be left out before (`ofEntries_filter`), with all tables and dotted keys of a TOML
document.
-/

namespace GeoPartition.Settings

open Json (Draft Spells IsValue IsObject IsString Padded)

/-! ## Choices -/

/-- A choice for one of the settings. -/
inductive Choice
  | precision (n : UInt64)
  | maxFeatures (n : UInt64)
  | parallel (b : Bool)
  | skipInvalid (b : Bool)
deriving DecidableEq

/-- Makes a choice. -/
def choose (s : Settings) : Choice → Settings
  | .precision n => s.withPrecision n
  | .maxFeatures n => s.withMaxFeatures n
  | .parallel b => s.withParallel b
  | .skipInvalid b => s.withSkipInvalid b

namespace Choice

/-- The setting that is chosen. -/
def field : Choice → Field
  | precision _ => .precision
  | maxFeatures _ => .maxFeatures
  | parallel _ => .parallel
  | skipInvalid _ => .skipInvalid

/-- The text of the value that is chosen, in JSON. -/
def text : Choice → List Char
  | precision n | maxFeatures n => Nat.toDigits 10 n.toNat
  | parallel b | skipInvalid b => boolText b

/-- A text of the value that is chosen, in TOML. -/
def IsText : Choice → List Char → Prop
  | precision n | maxFeatures n => fun t => Toml.IsInteger t n.toNat
  | parallel b | skipInvalid b => fun t => Toml.IsBoolean t b

/-- The value that is chosen, as it is read from JSON. -/
def draft : Choice → Draft
  | precision n | maxFeatures n => .number (.ofNat n.toNat)
  | parallel b | skipInvalid b => .bool b

/-- The value that is chosen, as it is read from TOML. -/
def value : Choice → Toml.Value
  | precision n | maxFeatures n => .integer n.toNat
  | parallel b | skipInvalid b => .boolean b

theorem spells_boolText (b : Bool) : Spells (boolText b) (.bool b) := by
  cases b with
  | false => exact Json.spells_bool false 0
  | true => exact Json.spells_bool true 0

theorem spells_text (c : Choice) : Spells c.text c.draft := by
  cases c with
  | precision n => exact Json.spells_natural n.toNat 0
  | maxFeatures n => exact Json.spells_natural n.toNat 0
  | parallel b => exact spells_boolText b
  | skipInvalid b => exact spells_boolText b

theorem IsText.spells {c : Choice} {t : List Char} (h : c.IsText t) : Toml.Spells 0 t c.value := by
  cases c with
  | precision n => exact Toml.IsInteger.spells h
  | maxFeatures n => exact Toml.IsInteger.spells h
  | parallel b => exact Toml.IsBoolean.spells h
  | skipInvalid b => exact Toml.IsBoolean.spells h

theorem readField_draft (c : Choice) (s : Settings) :
    readField c.field c.draft s = .ok (s.choose c) := by
  have hnatural (n : UInt64) : (Draft.number (.ofNat n.toNat)).natural "usize" = .ok n.toNat :=
    Json.natural_ofNat n.toNat_lt "usize"
  cases c with
  | precision n =>
    simp [readField, field, draft, hnatural, choose, withPrecision, Functor.map, Except.map]
  | maxFeatures n =>
    simp [readField, field, draft, Draft.nullable, hnatural, choose, withMaxFeatures, Functor.map,
      Except.map]
  | parallel b => rfl
  | skipInvalid b => rfl

theorem readEntry_value (c : Choice) (s : Settings) :
    s.readEntry c.field c.value = .ok (s.choose c) := by
  have hnatural (n : ℕ) : (Toml.Value.integer n).natural "usize" = .ok n := by
    simp [Toml.Value.natural]
  cases c with
  | precision n =>
    simp [readEntry, field, value, hnatural, choose, withPrecision, Functor.map, Except.map]
  | maxFeatures n =>
    simp [readEntry, field, value, hnatural, choose, withMaxFeatures, Functor.map, Except.map]
  | parallel b => rfl
  | skipInvalid b => rfl

end Choice

/-- Choices for different settings can be made in either order. -/
theorem choose_comm {c c' : Choice} (h : c.field ≠ c'.field) (s : Settings) :
    (s.choose c).choose c' = (s.choose c').choose c := by
  cases c <;> cases c' <;> first | rfl | exact absurd rfl h

/-- **Choices can be made in any order**, if each is for a setting of its own. -/
theorem foldl_choose_perm {cs order : List Choice} (hfields : (cs.map Choice.field).Nodup)
    (h : order.Perm cs) (s : Settings) : order.foldl choose s = cs.foldl choose s := by
  refine h.foldl_eq' (fun c hc c' hc' s => ?_) s
  by_cases hfield : c.field = c'.field
  · rw [List.inj_on_of_nodup_map hfields (h.subset hc) (h.subset hc') hfield]
  · exact choose_comm hfield s

/-! ## Members -/

/-- Members that make some choices, with others anywhere among them: `key` tells the key of each
setting, `stands` what stands for a choice, and `other` what another member may be. -/
inductive Makes {κ τ : Type} (key : Field → κ) (stands : Choice → τ → Prop) (other : κ → τ → Prop) :
    List (κ × τ) → List Choice → Prop
  | nil : Makes key stands other [] []
  | choice {c : Choice} {t : τ} {ms : List (κ × τ)} {cs : List Choice} (ht : stands c t)
      (h : Makes key stands other ms cs) : Makes key stands other ((key c.field, t) :: ms) (c :: cs)
  | other {k : κ} {t : τ} {ms : List (κ × τ)} {cs : List Choice} (ht : other k t)
      (h : Makes key stands other ms cs) : Makes key stands other ((k, t) :: ms) cs

/-- Is a name the key of no setting? -/
def IsOther (name : String) : Prop := ∀ f : Field, f.key ≠ name

/-- Members of an object with choices. -/
abbrev MakesJson : List (String × List Char) → List Choice → Prop :=
  Makes Field.key (fun c t => t = c.text) fun key t => IsOther key ∧ IsValue t

/-- Members of a table with choices. -/
abbrev MakesToml : List (List String × List Char) → List Choice → Prop :=
  Makes (fun f => [f.key]) Choice.IsText fun key _ => IsOther (Toml.first key)

/-- Entries with choices. -/
abbrev MakesEntries : List (String × Toml.Value) → List Choice → Prop :=
  Makes Field.key (fun c v => v = c.value) fun key _ => IsOther key

variable {cs order : List Choice}

/-! ## Reading JSON -/

theorem field?_eq_none {key : String} (h : IsOther key) : record.field? key.toList = none := by
  rw [Json.Record.field?, List.find?_eq_none]
  intro f _ hf
  exact h f (String.toList_inj.1 (of_decide_eq_true hf))

/-- Members of an object are read, one by one. -/
theorem Makes.spells {ms : List (String × List Char)} (h : MakesJson ms cs) :
    ∀ m ∈ ms, ∃ d, Spells m.2 d := by
  induction h with
  | nil => nofun
  | @choice c t ms cs ht _ ih =>
    exact List.forall_mem_cons.2 ⟨⟨c.draft, ht ▸ c.spells_text⟩, ih⟩
  | other ht _ ih =>
    obtain ⟨d, hd, -⟩ := IsValue.spells ht.2
    exact List.forall_mem_cons.2 ⟨⟨d, hd⟩, ih⟩

/-- Members of an object are choices, or are passed over. -/
theorem Makes.gives {ms : List (String × List Char)} (h : MakesJson ms cs)
    {ds : List (Json.Lexeme × Draft)}
    (hds : List.Forall₂ (fun m d => d.1.text = .ok m.1.toList ∧ Spells m.2 d.2) ms ds) :
    record.Gives ds (cs.map fun c => (c.field, (·.choose c))) := by
  induction h generalizing ds with
  | nil =>
    cases hds
    exact .nil
  | @choice c t ms cs ht _ ih =>
    cases hds with
    | @cons _ d _ ds hd hds =>
      have hread (s : Settings) : readField c.field d.2 s = .ok (s.choose c) := by
        rw [hd.2.unique (ht ▸ c.spells_text), c.readField_draft]
      exact .field hd.1 (field?_key c.field) hread (ih hds)
  | other ht _ ih =>
    obtain ⟨hkey, ht⟩ := ht
    cases hds with
    | @cons _ d _ ds hd hds =>
      obtain ⟨d', hspells, hskip⟩ := IsValue.spells ht
      exact .other hd.1 (field?_eq_none hkey) (hd.2.unique hspells ▸ hskip) (ih hds)

/-- **An object with choices**, in any layout, is read as these choices. -/
theorem readText_of_makes (hfields : (cs.map Choice.field).Nodup) {s object : List Char}
    (hs : Padded s object) {ms : List (String × List Char)} (hobject : IsObject IsString object ms)
    (h : MakesJson ms cs) : record.readText {} s = .ok (cs.foldl choose {}) := by
  have hmembers : ∀ m ∈ ms, ∃ d, Spells m.2 d ∧ Spells m.2 d := fun m hm =>
    (h.spells m hm).imp fun _ hd => ⟨hd, hd⟩
  obtain ⟨ds, hds, hall⟩ := hobject.spells (K := fun key l => l.text = .ok key.toList)
    (P := fun m d => Spells m.2 d) IsString.exists_key hmembers
  have hkeys : (cs.map fun c => (c.field, fun s : Settings => s.choose c)).map Prod.fst =
      cs.map Choice.field := by
    simp [Function.comp_def]
  rw [Json.Record.readText_of_spells (hds.padded hs),
    (h.gives hall).readDraft (by rwa [hkeys]) nofun, List.foldl_map]

/-! ## Reading TOML -/

/-- Is a name the key of a setting? -/
def isKey (name : String) : Bool := (Field.all.find? (·.key = name)).isSome

theorem isKey_key (f : Field) : isKey f.key := by
  rw [isKey, find?_key]
  rfl

theorem find?_eq_none {name : String} (h : IsOther name) :
    Field.all.find? (·.key = name) = none := by
  rw [List.find?_eq_none]
  intro f _ hf
  exact h f (of_decide_eq_true hf)

theorem isKey_eq_false {name : String} (h : IsOther name) : isKey name = false := by
  rw [isKey, find?_eq_none h]
  rfl

/-- Other entries make no difference. -/
theorem ofEntries_filter (vs : List (String × Toml.Value)) :
    ofEntries (vs.filter fun e => isKey e.1) = ofEntries vs := by
  unfold Settings.ofEntries
  generalize ({} : Settings) = s
  induction vs generalizing s with
  | nil => rfl
  | cons e vs ih =>
    cases hfind : Field.all.find? (·.key = e.1) with
    | none =>
      have hkey : ¬ isKey e.1 := by simp [isKey, hfind]
      rw [List.filter_cons_of_neg (by simpa using hkey), List.foldlM_cons]
      simp only [hfind]
      exact ih s
    | some f =>
      have hkey : isKey e.1 := by simp [isKey, hfind]
      rw [List.filter_cons_of_pos (by simpa using hkey), List.foldlM_cons, List.foldlM_cons]
      simp only [hfind]
      cases s.readEntry f e.2 with
      | error _ => rfl
      | ok s => exact ih s

/-- **Entries with choices** are read as these choices. -/
theorem Makes.ofEntries {vs : List (String × Toml.Value)} (h : MakesEntries vs cs) :
    Settings.ofEntries vs = .ok (cs.foldl choose {}) := by
  unfold Settings.ofEntries
  generalize ({} : Settings) = s
  induction h generalizing s with
  | nil => rfl
  | @choice c t vs cs ht _ ih =>
    rw [List.foldlM_cons]
    simp only [find?_key, ht, c.readEntry_value]
    exact ih (s.choose c)
  | other hkey _ ih =>
    rw [List.foldlM_cons]
    simp only [find?_eq_none hkey]
    exact ih s

/-- The choices among the members of a table are entries with the same choices. -/
theorem Makes.entries {ms : List (List String × List Char)} (h : MakesToml ms cs)
    {value : List Char → Toml.Value}
    (hvalue : ∀ m ∈ ms, Toml.Spells Toml.maxDepth m.2 (value m.2)) :
    MakesEntries ((ms.filter fun m => isKey (Toml.first m.1)).map fun m =>
      (Toml.first m.1, value m.2)) cs := by
  induction h with
  | nil => exact .nil
  | @choice c t ms cs ht _ ih =>
    obtain ⟨hfirst, hrest⟩ := List.forall_mem_cons.1 hvalue
    rw [List.filter_cons_of_pos (by simpa using isKey_key c.field)]
    exact .choice (hfirst.unique ht.spells) (ih hrest)
  | other hkey _ ih =>
    rw [List.filter_cons_of_neg (by simp [isKey_eq_false hkey])]
    exact ih (List.forall_mem_cons.1 hvalue).2

/-- The key of a setting has one part wherever it stands. -/
theorem Makes.first_eq {ms : List (List String × List Char)} (h : MakesToml ms cs) :
    ∀ m ∈ ms, isKey (Toml.first m.1) → m.1 = [Toml.first m.1] := by
  induction h with
  | nil => nofun
  | choice _ _ ih => exact List.forall_mem_cons.2 ⟨fun _ => rfl, ih⟩
  | other hkey _ ih =>
    refine List.forall_mem_cons.2 ⟨fun hother => ?_, ih⟩
    rw [isKey_eq_false hkey] at hother
    cases hother

/-- **A document with choices** among its members, in any layout, is read as these choices. -/
theorem exists_entries_of_makes {s : List Char} {ms : List (List String × List Char)}
    {ls : List Toml.Line} (hs : Toml.HasMembers s ms ls)
    (hls : ∀ l ∈ ls, l.Opens → IsOther (Toml.first l.key)) (h : MakesToml ms cs) :
    ∃ vs, Toml.ofText? s = some vs ∧ Settings.ofEntries vs = .ok (cs.foldl choose {}) := by
  obtain ⟨value, hvalue, vs, hread, hfilter⟩ := hs.ofText?
  refine ⟨vs, hread, ?_⟩
  rw [← ofEntries_filter, hfilter isKey (fun l hl hopens => isKey_eq_false (hls l hl hopens))
    h.first_eq]
  exact (h.entries hvalue).ofEntries

/-! ## Both notations -/

/-- **Documents that make some choices** are read as the settings with these choices made in any
order, if these can be used. What else the documents hold makes no difference, wherever it stands
and in whatever layout. -/
theorem ofJson_ofToml_choices (hfields : (cs.map Choice.field).Nodup) (horder : order.Perm cs)
    (hcheck : (order.foldl choose {}).check = .ok ()) :
    (∀ (text : String) (object : List Char) (ms : List (String × List Char)),
      Padded text.toList object → IsObject IsString object ms → MakesJson ms cs →
      ofJson text = .ok (order.foldl choose {})) ∧
    ∀ (text : String) (ms : List (List String × List Char)) (ls : List Toml.Line),
      Toml.HasMembers text.toList ms ls → (∀ l ∈ ls, l.Opens → IsOther (Toml.first l.key)) →
      MakesToml ms cs → ofToml text = .ok (order.foldl choose {}) := by
  rw [foldl_choose_perm hfields horder] at hcheck ⊢
  refine ⟨fun text object ms htext hobject hmakes => ?_, fun text ms ls htext hls hmakes => ?_⟩
  · rw [ofJson, readText_of_makes hfields htext hobject hmakes]
    exact checked_eq_ok_iff.2 ⟨hcheck, rfl⟩
  · obtain ⟨vs, hread, hvs⟩ := exists_entries_of_makes htext hls hmakes
    rw [ofToml, hread]
    simp only [hvs]
    exact checked_eq_ok_iff.2 ⟨hcheck, rfl⟩

/-! ## Three choices -/

/-- Three of the four settings; the number of features is the largest that both notations hold. -/
def threeChoices : List Choice :=
  [.maxFeatures 9223372036854775807, .skipInvalid false, .precision 12]

/-- The choices, and a member that no setting asks for. -/
def threeMembers : List (String × List Char) :=
  [("max_features", "9223372036854775807".toList), ("x", "[[]]".toList),
    ("skip_invalid", "false".toList), ("precision", "12".toList)]

/-- An object with an escape in one of its keys. -/
def threeObject : List Char :=
  "\x7b\"max_features\" :9223372036854775807,\"x\":[[]] ,".toList ++
    "\"skip_invalid\":false,\"\\u0070recision\":12\x7d".toList

theorem isOther_x : IsOther "x" := by
  intro f
  cases f <;> decide

theorem makes_threeMembers (h : IsValue "[[]]".toList) : MakesJson threeMembers threeChoices := by
  have hone (c : Choice) {ms : List (String × List Char)} {cs : List Choice}
      (h : MakesJson ms cs) : MakesJson ((c.field.key, c.text) :: ms) (c :: cs) := .choice rfl h
  exact hone (.maxFeatures 9223372036854775807)
    (.other ⟨isOther_x, h⟩ (hone (.skipInvalid false) (hone (.precision 12) .nil)))

theorem isValue_items : IsValue "[[]]".toList := by
  have hinner : IsValue "[]".toList := .array (.empty Json.isBlanks_nil) nofun
  have harray : Json.IsArray ('[' :: ("[]".toList ++ [']'])) ["[]".toList] :=
    .items (.last (Json.padded_self _))
  exact .array harray (by simpa using hinner)

theorem isObject_threeMembers : IsObject IsString threeObject threeMembers := by
  have hescaped : IsString "\"\\u0070recision\"".toList "precision" :=
    ⟨_, ⟨"\\u0070recision".toList, .coded (a := '0') (n := 0x70) rfl
      (Json.isBody_escaped "recision".toList), rfl⟩, rfl⟩
  have hblank {t : List Char} : Padded (t ++ [' ']) t :=
    ⟨[], [' '], Json.isBlanks_nil, Json.isBlanks_blank, rfl⟩
  have hmembers : Json.AreMembers IsString
      ("\"max_features\"".toList ++ [' '] ++ ':' :: ("9223372036854775807".toList ++ ',' ::
        ("\"x\"".toList ++ ':' :: ("[[]]".toList ++ [' '] ++ ',' ::
          ("\"skip_invalid\"".toList ++ ':' :: ("false".toList ++ ',' ::
            ("\"\\u0070recision\"".toList ++ ':' :: "12".toList))))))) threeMembers := by
    refine .cons hblank (Json.isString_quote "max_features") (Json.padded_self _) ?_
    refine .cons (Json.padded_self _) (Json.isString_quote "x") hblank ?_
    refine .cons (Json.padded_self _) (Json.isString_quote "skip_invalid") (Json.padded_self _) ?_
    exact .last (Json.padded_self _) hescaped (Json.padded_self _)
  exact .members hmembers

/-- The choices among members of other kinds. -/
def threeKeys : List (List String × List Char) :=
  [(["max_features"], "9223372036854775807".toList),
    (["x"], "[ 1979-05-27, 6.5e1 ]".toList), (["fruit", "colour"], "\"\\u0072ed\"".toList),
    (["skip_invalid"], "false".toList), (["precision"], "0x0_C".toList),
    (["fruit", "size"], "\x7b cm = +1 \x7d".toList)]

/-- An array of tables in front of the header of its table. -/
def threeTables : List Toml.Line :=
  [.item ["table", "items"], .entry ["precision"] ['1'], .header ["table"]]

/-- Both in lines with a comment, keys with and without quotes, and both line ends. -/
def threeLines : List Char :=
  "# three\r\n\"max_features\" = 9223372036854775807\nx = [ 1979-05-27, 6.5e1 ] # other\n".toList ++
    "fruit.colour = \"\\u0072ed\"\n'skip_invalid' = false\r\nprecision = 0x0_C\n".toList ++
    "fruit.size = \x7b cm = +1 \x7d\n[[table.items]]\nprecision = 1\n[table]".toList

theorem isDocument_threeLines : Toml.IsDocument threeLines
    (threeKeys.map (fun m => .entry m.1 m.2) ++ threeTables) := by
  have hnil := Toml.isBlanks_nil
  have hblank := Toml.isBlanks_blank
  have hcomment {s : List Char} (h : s.all Toml.isCommentChar) : Toml.IsComment ('#' :: s) :=
    .text (List.all_eq_true.1 h)
  have hplain {s : List Char} (h : s.all fun c => Toml.isCommentChar c && c ≠ '"' && c ≠ '\\' &&
      c ≠ '\'') : ∀ c ∈ s, Toml.isCommentChar c ∧ c ≠ '"' ∧ c ≠ '\\' ∧ c ≠ '\'' := by
    simpa [and_assoc] using h
  have hbare (key : String) (hne : key.toList ≠ []) (h : key.toList.all Toml.isBareKeyChar) :
      Toml.IsPart key.toList key := .bare ⟨hne, List.all_eq_true.1 h⟩
  have hquoted : Toml.IsPart ('"' :: ("max_features".toList ++ ['"'])) "max_features" :=
    .basic (Toml.isBasic_self fun c hc => by simp [hplain rfl c hc])
  have hliteral : Toml.IsPart ('\'' :: ("skip_invalid".toList ++ ['\''])) "skip_invalid" :=
    .literal fun c hc => by simp [hplain rfl c hc]
  have hone {k b c : List Char} {key : String} (hk : Toml.IsPart k key) (t : List Char)
      (hb : Toml.IsBlanks b) (hc : Toml.IsComment c) :
      Toml.IsLine (k ++ ' ' :: '=' :: ' ' :: (t ++ (b ++ c))) [.entry [key] t] :=
    Toml.IsLine.entry hnil (.part hk) hblank hblank hb hc
  have htwo (key : String) (hne : key.toList ≠ []) (h : key.toList.all Toml.isBareKeyChar)
      (t : List Char) : Toml.IsLine ("fruit.".toList ++ key.toList ++ ' ' :: '=' :: ' ' :: t)
        [.entry ["fruit", key] t] := by
    have hkey : Toml.IsKey _ ["fruit", key] :=
      .dotted (hbare "fruit" (by decide) rfl) hnil hnil (.part (hbare key hne h))
    have hline := Toml.IsLine.entry (t := t) hnil hkey hblank hblank hnil .absent
    simpa using hline
  have htable : Toml.IsLine "[table]".toList [.header ["table"]] :=
    .header hnil hnil (.part (hbare "table" (by decide) rfl)) hnil hnil .absent
  have hitem : Toml.IsLine "[[table.items]]".toList [.item ["table", "items"]] :=
    .item hnil hnil (.dotted (hbare "table" (by decide) rfl) hnil hnil
      (.part (hbare "items" (by decide) rfl))) hnil hnil .absent
  have hprecision (t : List Char) := hone (hbare "precision" (by decide) rfl) t hnil .absent
  have hlayout := Toml.IsLayout.line (.blank hnil (hcomment (s := " three".toList) rfl)) .carriage
    (.line (hone hquoted "9223372036854775807".toList hnil .absent) .feed
    (.line (hone (hbare "x" (by decide) rfl) "[ 1979-05-27, 6.5e1 ]".toList hblank
      (hcomment (s := " other".toList) rfl)) .feed
    (.line (htwo "colour" (by decide) rfl "\"\\u0072ed\"".toList) .feed
    (.line (hone hliteral "false".toList hnil .absent) .carriage
    (.line (hprecision "0x0_C".toList) .feed
    (.line (htwo "size" (by decide) rfl "\x7b cm = +1 \x7d".toList) .feed
    (.line hitem .feed (.line (hprecision ['1']) .feed (.last htable)))))))))
  exact ⟨_, hlayout, .inl (by cbv)⟩

theorem isText_threeChoices :
    (Choice.maxFeatures 9223372036854775807).IsText "9223372036854775807".toList ∧
    (Choice.skipInvalid false).IsText "false".toList ∧
    (Choice.precision 12).IsText "0x0_C".toList := by
  have hhex : Toml.IsRun (Toml.isDigitOf 16) "0_C".toList "0C".toList :=
    .spaced (by decide) (.last (by decide))
  exact ⟨Toml.isInteger_toDigits (n := 9223372036854775807) (by decide), .false,
    .inBase (by decide) hhex (by decide)⟩

theorem makes_threeKeys : MakesToml threeKeys threeChoices := by
  obtain ⟨hmax, hskip, hprecision⟩ := isText_threeChoices
  have hother {name : String} (h : ∀ f ∈ Field.all, f.key ≠ name) : IsOther name :=
    fun f => h f (by cases f <;> decide)
  exact .choice hmax (.other isOther_x (.other (hother (by decide)) (.choice hskip
    (.choice hprecision (.other (hother (by decide)) .nil)))))

/-- Values of other kinds: an array with a date and a float, a string with an escape, and an inline
table. -/
theorem isValue_others : Toml.IsValue Toml.maxDepth "[ 1979-05-27, 6.5e1 ]".toList ∧
    Toml.IsValue Toml.maxDepth "\"\\u0072ed\"".toList ∧
    Toml.IsValue Toml.maxDepth "\x7b cm = +1 \x7d".toList := by
  have hgap := Toml.isGap_blank
  have hblank := Toml.isBlanks_blank
  have hfixed {n low high : ℕ} {s : List Char} (x : ℕ) (hs : s.length = n ∧ s.all Char.isDigit)
      (hx : Nat.ofDigitChars 10 s 0 = x) (h : low ≤ x ∧ x ≤ high) : Toml.IsFixed n low high s :=
    ⟨hs.1, List.all_eq_true.1 hs.2, hx ▸ h.1, hx ▸ h.2⟩
  have hdigit (c : Char) (h : c.isDigit) : Toml.IsRun Char.isDigit [c] [c] := .last h
  have hwhole (c : Char) (h : c.isDigit) : Toml.IsWhole [c] [c] := ⟨hdigit c h, by simp⟩
  have hdate : Toml.IsDate ("1979".toList ++ '-' :: ("05".toList ++ '-' :: "27".toList)) :=
    .mk (hfixed 1979 (by decide) rfl (by decide)) (hfixed 5 (by decide) rfl (by decide))
      (hfixed 27 (by decide) rfl (by decide))
  have hfloat : Toml.IsFloat ([] ++ (['6'] ++ '.' :: (['5'] ++ 'e' :: ([] ++ ['1'])))) :=
    .decimal .absent (hwhole '6' rfl)
      (.both (hdigit '5' rfl) (.mk (.inl rfl) .absent (hdigit '1' rfl))) (by decide +kernel)
  have harray : Toml.IsArray ('[' :: ([' '] ++ ("1979-05-27".toList ++ ([] ++ ',' :: ([' '] ++
      ("6.5e1".toList ++ [' ']))) ++ [']']))) ["1979-05-27".toList, "6.5e1".toList] :=
    .mk hgap (.cons .nil hgap (.last hgap))
  have hescape : Toml.IsEscape "u0072".toList 'r' := .short rfl (by decide)
  have hstring : Toml.IsString ('"' :: ('\\' :: ("u0072".toList ++ "ed".toList) ++ ['"'])) :=
    .basic (.escaped hescape (Toml.isBasic_self (by simp [Toml.isCommentChar])))
  have hinteger : Toml.IsInteger "+1".toList 1 :=
    .decimal .plus (hwhole '1' rfl) (by decide) (by decide)
  have hcm : Toml.IsKey "cm".toList ["cm"] := .part (.bare ⟨by decide, List.all_eq_true.1 rfl⟩)
  have htable := Toml.IsInline.members hblank (.last hcm hblank hblank hblank (t := "+1".toList))
  refine ⟨?_, .scalar (.string hstring), ?_⟩
  · exact .array harray (List.forall_mem_cons.2 ⟨.scalar (.dateTime (.date hdate)),
      List.forall_mem_cons.2 ⟨.scalar (.float hfloat), List.forall_mem_nil _⟩⟩)
  · exact .table htable ⟨by decide, by decide, by decide⟩
      (List.forall_mem_cons.2 ⟨.scalar (.integer hinteger), List.forall_mem_nil _⟩)

theorem hasMembers_threeLines : Toml.HasMembers threeLines threeKeys threeTables where
  document := isDocument_threeLines
  follows := by
    obtain ⟨hmax, hskip, hprecision⟩ := isText_threeChoices
    obtain ⟨harray, hstring, htable⟩ := isValue_others
    have hone : Toml.IsInteger ['1'] 1 := Toml.isInteger_toDigits (n := 1) (by decide)
    refine .entry (by decide) (by decide) (.scalar (.integer hmax)) (by decide) ?_
    refine .entry (by decide) (by decide) harray (by decide) ?_
    refine .entry (by decide) (by decide) hstring (by decide) ?_
    refine .entry (by decide) (by decide) (.scalar (.boolean hskip)) (by decide) ?_
    refine .entry (by decide) (by decide) (.scalar (.integer hprecision)) (by decide) ?_
    refine .entry (by decide) (by decide) htable (by decide) ?_
    refine .item (by decide) (by decide) (by decide) ?_
    refine .entry (by decide) (by decide) (.scalar (.integer hone)) (by decide) ?_
    exact .header (by decide) (by decide) (by decide) .nil
  opens := by simp [threeTables, Toml.Line.Opens]

/-- The same choices, in both notations, made in another order. -/
theorem ofJson_ofToml_threeChoices :
    ofJson (String.ofList threeObject) = .ok ⟨12, some 9223372036854775807, false, false⟩ ∧
    ofToml (String.ofList threeLines) = .ok ⟨12, some 9223372036854775807, false, false⟩ := by
  have horder : [.precision 12, .skipInvalid false, .maxFeatures 9223372036854775807].Perm
      threeChoices := by decide
  have hother : IsOther "table" := by
    intro f
    cases f <;> decide
  obtain ⟨hjson, htoml⟩ := ofJson_ofToml_choices (by decide) horder (by decide)
  refine ⟨hjson _ threeObject threeMembers ?_ isObject_threeMembers
    (makes_threeMembers isValue_items), htoml _ threeKeys threeTables ?_ ?_ makes_threeKeys⟩
  · rw [String.toList_ofList]
    exact Json.padded_self _
  · rw [String.toList_ofList]
    exact hasMembers_threeLines
  · simp [threeTables, Toml.Line.Opens, Toml.Line.key, hother]

/-! ## Documents beyond the limits -/

/-- A choice below another member. -/
def below (k t : List Char) : List Char :=
  k ++ [' ', '=', ' '] ++ t ++ "\nprecision = 5".toList

theorem isDocument_below {k : List Char} {key : List String} (hk : Toml.IsKey k key)
    (t : List Char) :
    Toml.IsDocument (below k t) [.entry key t, .entry ["precision"] ['5']] := by
  have hnil := Toml.isBlanks_nil
  have hblank := Toml.isBlanks_blank
  have hfirst : Toml.IsLine _ [.entry key t] := .entry hnil hk hblank hblank hnil .absent
  have hlast : Toml.IsLine _ [.entry ["precision"] ['5']] :=
    .entry hnil (.part (.bare (isBare_key .precision))) hblank hblank hnil .absent
  refine ⟨_, .line hfirst .feed (.last hlast), .inl ?_⟩
  simp [below]

/-- **A member beyond the limits is not passed over** in TOML: the choice below it is lost with the
document, which has the layout of any other. The first has an array within 79 others, the second a
key of 80 parts, the third an integer of more than 64 bits, and the fourth a float above all finite
numbers. -/
theorem ofToml_beyondLimits :
    (choose {} (.precision 5)).check = .ok () ∧
    (Toml.IsDocument (below ['a'] (Toml.nested 79))
        [.entry ["a"] (Toml.nested 79), .entry ["precision"] ['5']] ∧
      Toml.IsValue 80 (Toml.nested 79) ∧
      ofToml (String.ofList (below ['a'] (Toml.nested 79))) = .error .malformed) ∧
    (Toml.IsDocument (below (Toml.dotted 79) ['1'])
        [.entry (List.replicate 80 "a") ['1'], .entry ["precision"] ['5']] ∧
      ofToml (String.ofList (below (Toml.dotted 79) ['1'])) = .error .malformed) ∧
    (Toml.IsDocument (below ['a'] "9223372036854775808".toList)
        [.entry ["a"] "9223372036854775808".toList, .entry ["precision"] ['5']] ∧
      Toml.IsWhole "9223372036854775808".toList "9223372036854775808".toList ∧
      ofToml (String.ofList (below ['a'] "9223372036854775808".toList)) = .error .malformed) ∧
    (Toml.IsDocument (below ['a'] "1e400".toList)
        [.entry ["a"] "1e400".toList, .entry ["precision"] ['5']] ∧
      Toml.IsTail "e400".toList [] 400 ∧
      ofToml (String.ofList (below ['a'] "1e400".toList)) = .error .malformed) := by
  have hmalformed {s : List Char} (h : Toml.ofText? s = none) :
      ofToml (String.ofList s) = .error .malformed := by
    rw [ofToml, String.toList_ofList, h]
  have ha : Toml.IsKey ['a'] ["a"] := Toml.isKey_dotted 0
  have hblank := Toml.isBlanks_blank
  refine ⟨by decide, ⟨isDocument_below ha _, Toml.isValue_nested 79, hmalformed ?_⟩,
    ⟨isDocument_below (Toml.isKey_dotted 79) _, hmalformed ?_⟩,
    ⟨isDocument_below ha _, ?_, hmalformed ?_⟩, ⟨isDocument_below ha _, ?_, hmalformed ?_⟩⟩
  · have hnone := Toml.ofText?_nested ha (by decide) hblank hblank (n := 79) (by decide)
      "\nprecision = 5".toList
    simpa [below] using hnone
  · rw [below, List.append_assoc, List.append_assoc]
    exact Toml.ofText?_long (Toml.isKey_dotted 79) (by decide) _
  · exact ⟨Toml.isRun_self (by decide) (List.all_eq_true.1 rfl), by decide⟩
  · exact Option.isNone_iff_eq_none.1 (by decide +kernel)
  · have hdigits : Toml.IsRun Char.isDigit "400".toList "400".toList :=
      Toml.isRun_self (by decide) (List.all_eq_true.1 rfl)
    exact .exponent (.mk (.inl rfl) .absent hdigits)
  · exact Option.isNone_iff_eq_none.1 (by decide +kernel)

end GeoPartition.Settings
