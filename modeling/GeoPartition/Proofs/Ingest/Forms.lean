import GeoPartition.Ingest
import GeoPartition.Proofs.Json.Denotes

/-!
# The three forms of a document

**Theorem (`text_feature_collection`).** A geometry, the feature of that geometry, and the
collection of that feature are filed alike: with the same tally, or with the same fault.

The text of the geometry stands within the text of the feature, and that within the text of the
collection, each in any layout. What is read there is the value of the geometry, so all three are
documents of the same features, as long as none nests deeper than a document may.
-/

namespace GeoPartition

namespace GeoJson

open Json (Denotes IsArray IsObject IsString Padded Value)

/-! ## Members -/

theorem geometry_of_ofMembers {ms : Members} {G : Geometry}
    (h : Document.ofMembers ms = .ok (.geometry G)) : Geometry.ofMembers ms = .ok G := by
  unfold Document.ofMembers at h
  split at h
  · split_ifs at h
    · obtain ⟨f, -, hf⟩ := map_eq_ok_iff.1 h
      cases hf
    · obtain ⟨_, -, h⟩ := bind_eq_ok_iff.1 h
      obtain ⟨vs, -, h⟩ := bind_eq_ok_iff.1 h
      obtain ⟨fs, -, hfs⟩ := map_eq_ok_iff.1 h
      cases hfs
    · obtain ⟨G', hG', hG⟩ := map_eq_ok_iff.1 h
      cases hG
      exact hG'
  · cases h

/-- A document that is a geometry is an object with its members. -/
theorem denotes_of_ofText {s : List Char} {G : Geometry}
    (h : Document.ofText (String.ofList s) = .ok (.geometry G)) :
    ∃ ms, Denotes s (.object ms) ∧ Geometry.ofMembers ms = .ok G := by
  obtain ⟨v, hv, h⟩ := bind_eq_ok_iff.1 h
  rw [mapError_eq_ok_iff, String.toList_ofList] at hv
  cases v with
  | object ms => exact ⟨ms, Json.denotes_of_ofText hv, geometry_of_ofMembers h⟩
  | _ => cases h

/-- A text that denotes an object with the members of a document is that document. -/
theorem ofText_of_denotes {s : List Char} {ms : Members} {d : Document}
    (h : Denotes s (.object ms)) (hd : Document.ofMembers ms = .ok d)
    (hn : Json.nesting s ≤ Value.maxDepth) : Document.ofText (String.ofList s) = .ok d := by
  rw [Document.ofText, String.toList_ofList, h.ofText hn]
  exact hd

section

variable {ms gms : Members} {G : Geometry}

theorem checkBbox_of_none (h : ms.lookup "bbox" = none) : checkBbox ms = .ok () := by
  rw [checkBbox, h]

theorem Feature.ofMembers_eq_ok (htype : ms.lookup "type" = some (.string "Feature"))
    (hgeometry : ms.lookup "geometry" = some (.object gms)) (hG : Geometry.ofMembers gms = .ok G)
    (hproperties : ms.lookup "properties" = some .null) (hid : ms.lookup "id" = none)
    (hbbox : ms.lookup "bbox" = none) : Feature.ofMembers ms = .ok ⟨some G⟩ := by
  have htypeOf : typeOf ms = .ok "Feature" := by
    rw [typeOf, property, htype]
    rfl
  have hgeometryOf : geometryOf ms = .ok (some G) := by
    rw [geometryOf, property, hgeometry]
    show some <$> Geometry.ofMembers gms = _
    rw [hG]
    rfl
  simp [Feature.ofMembers, htypeOf, hgeometryOf, checkProperties, hproperties, checkIdentifier, hid,
    checkBbox_of_none hbbox, bind, Except.bind, pure, Except.pure]

end

/-! ## Texts -/

/-- The text of a feature with a geometry and without properties. -/
def IsFeature (geometry s : List Char) : Prop :=
  ∃ object type ms, Padded s object ∧ IsObject IsString object ms ∧ IsString type "Feature" ∧
    ms.Perm [("type", type), ("geometry", geometry), ("properties", ['n', 'u', 'l', 'l'])]

/-- The text of a collection of one feature. -/
def IsCollection (feature s : List Char) : Prop :=
  ∃ object type array ms, Padded s object ∧ IsObject IsString object ms ∧
    IsString type "FeatureCollection" ∧ IsArray array [feature] ∧
    ms.Perm [("type", type), ("features", array)]

/-- **An object in any order** denotes the values of its members. -/
theorem exists_members_of_perm {s object : List Char} (hs : Padded s object)
    {ms us : List (String × List Char)} (hobject : IsObject IsString object ms) (hms : ms.Perm us)
    (hnodup : (us.map Prod.fst).Nodup) {vs : Members}
    (hvs : List.Forall₂ (fun u e => e.1 = u.1 ∧ Denotes u.2 e.2) us vs) :
    ∃ members, Denotes s (.object members) ∧ ∀ k, members.lookup k = vs.lookup k := by
  obtain ⟨ws, hws, hperm⟩ := List.perm_comp_forall₂ hms hvs
  have hnodup' : (ms.map Prod.fst).Nodup := (hms.map Prod.fst).nodup_iff.2 hnodup
  have hnodupws : (ws.map Prod.fst).Nodup := by rwa [Keyed.map_fst_eq hws]
  obtain ⟨members, hmembers, hlookup⟩ := hobject.denotes hnodup' hws
  refine ⟨members, hmembers.padded hs, fun k => ?_⟩
  rw [hlookup, Keyed.lookup_perm hnodupws hperm]

section

variable {g f c : List Char} {gms : Members} {G : Geometry} (hg : Denotes g (.object gms))
  (hG : Geometry.ofMembers gms = .ok G)

include hg hG

/-- **A feature is read** as the feature of its geometry. -/
theorem IsFeature.denotes (hf : IsFeature g f) :
    ∃ ms, Denotes f (.object ms) ∧ ms.lookup "type" = some (.string "Feature") ∧
      Feature.ofMembers ms = .ok ⟨some G⟩ := by
  obtain ⟨object, type, ms, hs, hobject, htype, hms⟩ := hf
  have hvalues : List.Forall₂ (fun u (e : String × Value) => e.1 = u.1 ∧ Denotes u.2 e.2)
      [("type", type), ("geometry", g), ("properties", ['n', 'u', 'l', 'l'])]
      [("type", .string "Feature"), ("geometry", .object gms), ("properties", .null)] :=
    .cons ⟨rfl, htype.denotes⟩ (.cons ⟨rfl, hg⟩ (.cons ⟨rfl, Json.denotes_null⟩ .nil))
  obtain ⟨members, hmembers, hlookup⟩ :=
    exists_members_of_perm hs hobject hms (by simp) hvalues
  refine ⟨members, hmembers, hlookup "type", ?_⟩
  exact Feature.ofMembers_eq_ok (hlookup "type") (hlookup "geometry") hG (hlookup "properties")
    (hlookup "id") (hlookup "bbox")

theorem IsFeature.document (hf : IsFeature g f) (hn : Json.nesting f ≤ Value.maxDepth) :
    Document.ofText (String.ofList f) = .ok (.feature ⟨some G⟩) := by
  obtain ⟨ms, hms, htype, hfeature⟩ := hf.denotes hg hG
  refine ofText_of_denotes hms ?_ hn
  simp [Document.ofMembers, htype, hfeature, Functor.map, Except.map]

/-- **A collection is read** as the collection of its feature. -/
theorem IsCollection.document (hf : IsFeature g f) (hc : IsCollection f c)
    (hn : Json.nesting c ≤ Value.maxDepth) :
    Document.ofText (String.ofList c) = .ok (.featureCollection [⟨some G⟩]) := by
  obtain ⟨fms, hfms, -, hfeature⟩ := hf.denotes hg hG
  obtain ⟨object, type, array, ms, hs, hobject, htype, harray, hms⟩ := hc
  have hvalues : List.Forall₂ (fun u (e : String × Value) => e.1 = u.1 ∧ Denotes u.2 e.2)
      [("type", type), ("features", array)]
      [("type", .string "FeatureCollection"), ("features", .array [.object fms])] :=
    .cons ⟨rfl, htype.denotes⟩ (.cons ⟨rfl, harray.denotes (.cons hfms .nil)⟩ .nil)
  obtain ⟨members, hmembers, hlookup⟩ :=
    exists_members_of_perm hs hobject hms (by simp) hvalues
  have hfeatures : arrayOf "features" members = .ok [.object fms] := by
    rw [arrayOf, property, hlookup]
    rfl
  refine ofText_of_denotes hmembers ?_ hn
  have hread : [Value.object fms].mapM Feature.ofValue = .ok [⟨some G⟩] :=
    mapM_eq_ok_iff.2 (.cons hfeature .nil)
  have htype' : members.lookup "type" = some (.string "FeatureCollection") := hlookup "type"
  simp [Document.ofMembers, htype', checkBbox_of_none (hlookup "bbox"), hfeatures, hread, bind,
    Except.bind, Functor.map, Except.map]

end

end GeoJson

namespace Ingest

open GeoJson (Document)

/-- What is filed are the features of a document. -/
theorem text_congr {a b : String} {d e : Document} (ha : Document.ofText a = .ok d)
    (hb : Document.ofText b = .ok e) (h : d.features = e.features) (s : Settings) :
    text a s = text b s := by
  simp only [text, ha, hb, Except.mapError, bind, Except.bind, h]

/-- **The three forms of a document** are filed alike, whatever the settings are. -/
theorem text_feature_collection {g f c : List Char} {G : GeoJson.Geometry}
    (hg : Document.ofText (String.ofList g) = .ok (.geometry G)) (hf : GeoJson.IsFeature g f)
    (hc : GeoJson.IsCollection f c) (s : Settings) :
    (Json.nesting f ≤ Json.Value.maxDepth →
      text (String.ofList f) s = text (String.ofList g) s) ∧
    (Json.nesting c ≤ Json.Value.maxDepth →
      text (String.ofList c) s = text (String.ofList g) s) := by
  obtain ⟨gms, hgms, hG⟩ := GeoJson.denotes_of_ofText hg
  refine ⟨fun hn => ?_, fun hn => ?_⟩
  · exact text_congr (hf.document hgms hG hn) hg rfl s
  · exact text_congr (hc.document hgms hG hf hn) hg rfl s

/-- A line with a bounding box and a member of its own. -/
def lineText : List Char :=
  "\x7b\"coordinates\":[[12,-8],[0,7,1]],\"x\":[null],".toList ++
    " \"bbox\":[0],\"type\":\"LineString\"\x7d".toList

/-- The feature of the line, with its members in another order. -/
def lineFeature : List Char :=
  "\x7b\"geometry\": ".toList ++ lineText ++ ",\"properties\":null,\"type\":\"Feature\"\x7d".toList

def lineCollection : List Char :=
  "\x7b\"type\":\"FeatureCollection\",\"features\":[".toList ++ lineFeature ++ "]\x7d".toList

def lineMembers : GeoJson.Members :=
  [("bbox", .array [.number (.natural 0)]),
    ("coordinates", .array [.array [.number (.natural 12), .number (.negative 8)],
      .array [.number (.natural 0), .number (.natural 7), .number (.natural 1)]]),
    ("type", .string "LineString"), ("x", .array [.null])]

def lineGeometry : GeoJson.Geometry :=
  .lineString [[Json.Number.toBinary64 (.natural 12), Json.Number.toBinary64 (.negative 8)],
    [Json.Number.toBinary64 (.natural 0), Json.Number.toBinary64 (.natural 7),
      Json.Number.toBinary64 (.natural 1)]]

set_option maxRecDepth 20000 in
theorem ofText_lineText :
    Document.ofText (String.ofList lineText) = .ok (.geometry lineGeometry) := by
  have hvalue : Json.Value.ofText lineText = .ok (.object lineMembers) := by cbv
  have hgeometry : GeoJson.Geometry.ofMembers lineMembers = .ok lineGeometry := by
    rw [GeoJson.Geometry.ofMembers]
    rfl
  rw [Document.ofText, String.toList_ofList, hvalue]
  show Document.geometry <$> GeoJson.Geometry.ofMembers lineMembers = _
  rw [hgeometry]
  rfl

theorem isFeature_lineFeature : GeoJson.IsFeature lineText lineFeature := by
  have hblank : Json.Padded (' ' :: lineText) lineText :=
    ⟨[' '], [], Json.isBlanks_blank, Json.isBlanks_nil, by simp⟩
  have hmembers : Json.AreMembers Json.IsString
      ("\"geometry\"".toList ++ ':' :: (' ' :: lineText ++ ',' ::
        ("\"properties\"".toList ++ ':' :: ("null".toList ++ ',' ::
          ("\"type\"".toList ++ ':' :: "\"Feature\"".toList)))))
      [("geometry", lineText), ("properties", "null".toList), ("type", "\"Feature\"".toList)] := by
    refine .cons (Json.padded_self _) (Json.isString_quote "geometry") hblank ?_
    refine .cons (Json.padded_self _) (Json.isString_quote "properties") (Json.padded_self _) ?_
    exact .last (Json.padded_self _) (Json.isString_quote "type") (Json.padded_self _)
  refine ⟨lineFeature, _, _, Json.padded_self _, .members hmembers,
    Json.isString_quote "Feature", ?_⟩
  exact (List.reverse_perm _).symm.trans (.cons _ (.swap _ _ []))

theorem isCollection_lineCollection : GeoJson.IsCollection lineFeature lineCollection := by
  have harray : Json.IsArray ('[' :: (lineFeature ++ [']'])) [lineFeature] :=
    .items (.last (Json.padded_self _))
  have hmembers : Json.AreMembers Json.IsString
      ("\"type\"".toList ++ ':' :: ("\"FeatureCollection\"".toList ++ ',' ::
        ("\"features\"".toList ++ ':' :: ('[' :: (lineFeature ++ [']'])))))
      [("type", "\"FeatureCollection\"".toList), ("features", '[' :: (lineFeature ++ [']']))] := by
    refine .cons (Json.padded_self _) (Json.isString_quote "type") (Json.padded_self _) ?_
    exact .last (Json.padded_self _) (Json.isString_quote "features") (Json.padded_self _)
  exact ⟨lineCollection, _, _, _, Json.padded_self _, .members hmembers,
    Json.isString_quote "FeatureCollection", harray, .refl _⟩

set_option maxRecDepth 20000 in
theorem nesting_lineFeature : Json.nesting lineFeature ≤ Json.Value.maxDepth := by
  cbv

set_option maxRecDepth 20000 in
theorem nesting_lineCollection : Json.nesting lineCollection ≤ Json.Value.maxDepth := by
  cbv

/-- A line, its feature and the collection of that are filed alike by the strict settings. -/
theorem text_feature_collection_line :
    text (String.ofList lineFeature) (({} : Settings).withSkipInvalid false) =
        text (String.ofList lineText) (({} : Settings).withSkipInvalid false) ∧
      text (String.ofList lineCollection) (({} : Settings).withSkipInvalid false) =
        text (String.ofList lineText) (({} : Settings).withSkipInvalid false) := by
  obtain ⟨hfeature, hcollection⟩ := text_feature_collection ofText_lineText isFeature_lineFeature
    isCollection_lineCollection (({} : Settings).withSkipInvalid false)
  exact ⟨hfeature nesting_lineFeature, hcollection nesting_lineCollection⟩

end Ingest

end GeoPartition
