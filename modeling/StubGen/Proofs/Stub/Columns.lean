import StubGen.Proofs.Schema.Claims
import StubGen.Proofs.Schema.Enumerations
import StubGen.Proofs.Schema.Spelling
import StubGen.Proofs.Stub.Quoted

/-!
# Columns that are typed twice

The schema of a column is typed by the engine, for the row, and once more by the table, for queries.
Both read it in their own order, so they need not agree on which classes there are. They do for the
schemas that are told by their type alone (`Agreed`): each name that the table quotes is one that
the engine has made sure of (`Agreed.assured`), and where the column is an object itself the type
of the engine is simple, so that the class can be read of it (`Agreed.direct`).
-/

namespace StubGen

open Schema
open ColumnType (hasProperties)

variable {members properties : Members} {document : Document} {hint : String}

/-! ## Types of columns in text -/

namespace ColumnType

theorem ofTypes_eq_map (list object : Unit → String) (types : List Json) :
    ofTypes list object types = types.map (ofType list object) := by
  induction types with
  | nil => rw [ofTypes, List.map_nil]
  | cons type types ih => rw [ofTypes, ih, List.map_cons]

theorem tupleTypes_eq_map (hint : String) (index : Nat) (schemas : List Json) :
    tupleTypes hint index schemas = (schemas.zipIdx index).map fun item =>
      ofSchema (hint ++ "Item" ++ toString item.2) item.1 := by
  induction schemas generalizing index with
  | nil => rw [tupleTypes, List.zipIdx_nil, List.map_nil]
  | cons schema schemas ih => rw [tupleTypes, ih, List.zipIdx_cons, List.map_cons]

theorem listType_cons (hint key : String) (items : Json) (rest : Members) :
    listType hint ((key, items) :: rest) = if key = "items" then match items with
      | .arr schemas => "Tuple[" ++ Text.join ", " (tupleTypes hint 0 schemas) ++ "]"
      | .obj inner => "List[" ++ ofSchema (hint ++ "Item") (.obj inner) ++ "]"
      | _ => "List[Any]" else listType hint rest :=
  listType.eq_def hint ((key, items) :: rest)

theorem objectType_cons (hint : String) (declared : Bool) (key : String) (value : Json)
    (rest : Members) : objectType hint declared ((key, value) :: rest) =
      if key = "patternProperties" then match value with
        | .obj ((_, schema) :: _) => "Dict[str, " ++ ofSchema (hint ++ "Value") schema ++ "]"
        | _ => objectType hint declared rest
      else objectType hint declared rest :=
  objectType.eq_def hint declared ((key, value) :: rest)

theorem listType_eq (hint : String) (members : Members) :
    listType hint members = match members.get? "items" with
      | some (.arr schemas) => "Tuple[" ++ Text.join ", " (tupleTypes hint 0 schemas) ++ "]"
      | some (.obj inner) => "List[" ++ ofSchema (hint ++ "Item") (.obj inner) ++ "]"
      | _ => "List[Any]" := by
  induction members with
  | nil => rw [listType, Members.get?_nil]
  | cons m members ih =>
      obtain ⟨key, items⟩ := m
      rw [listType_cons, Members.get?_cons]
      by_cases hkey : key = "items"
      · rw [if_pos hkey, if_pos hkey.symm]
        cases items <;> rfl
      · rw [if_neg hkey, if_neg (Ne.symm hkey), ih]

/-- No pattern describes the values of an object. -/
def Unpatterned (members : Members) : Prop :=
  ∀ m ∈ members, m.1 = "patternProperties" → ∀ pattern patterns, m.2 ≠ .obj (pattern :: patterns)

theorem objectType_of_unpatterned (hint : String) (declared : Bool) (h : Unpatterned members) :
    objectType hint declared members =
      if declared then "\"" ++ hint ++ "\"" else "Dict[str, Any]" := by
  induction members with
  | nil => rw [objectType]
  | cons m members ih =>
      obtain ⟨key, value⟩ := m
      have hrest := ih fun other hm => h other (List.mem_cons_of_mem _ hm)
      rw [objectType_cons, hrest]
      split
      · rename_i hkey
        split
        · exact absurd rfl (h _ List.mem_cons_self hkey _ _)
        · rfl
      · rfl

theorem objectType_of_pattern (hint : String) (declared : Bool) {pattern : String} {schema : Json}
    {patterns : Members}
    (h : members.get? "patternProperties" = some (.obj ((pattern, schema) :: patterns))) :
    objectType hint declared members =
      "Dict[str, " ++ ofSchema (hint ++ "Value") schema ++ "]" := by
  induction members with
  | nil => exact absurd h (by simp [Members.get?_nil])
  | cons m members ih =>
      obtain ⟨key, value⟩ := m
      rw [Members.get?_cons] at h
      rw [objectType_cons]
      by_cases hkey : key = "patternProperties"
      · rw [if_pos hkey.symm] at h
        rw [if_pos hkey, Option.some.inj h]
      · rw [if_neg (Ne.symm hkey)] at h
        rw [if_neg hkey, ih h]

theorem objectType_insert_type (hint : String) (declared : Bool) (members : Members)
    (type : Json) : objectType hint declared (Members.insert members "type" type) =
      objectType hint declared members := by
  induction members with
  | nil => exact objectType_cons hint declared "type" type []
  | cons m members ih =>
      obtain ⟨key, value⟩ := m
      rw [Members.insert]
      by_cases hkey : key = "type"
      · rw [if_pos hkey, hkey, objectType_cons, objectType_cons]
        rfl
      · rw [if_neg hkey, objectType_cons, objectType_cons, ih]

theorem hasProperties_insert_type (members : Members) (type : Json) :
    hasProperties (Members.insert members "type" type) = hasProperties members := by
  unfold hasProperties
  rw [Members.get?_insert_of_ne (by decide)]

/-- Among several types each is worked out for the schema with only this type. -/
theorem ofSchema_insert_type (hint : String) (members : Members) (type : Json) :
    ofSchema hint (.obj (Members.insert members "type" type)) =
      ofType (fun _ => listType hint members)
        (fun _ => objectType hint (hasProperties members) members) type := by
  rw [ofSchema]
  dsimp only
  rw [Members.get?_insert_self, objectType_insert_type, hasProperties_insert_type,
    listType_eq hint (Members.insert _ _ _), Members.get?_insert_of_ne (by decide),
    ← listType_eq]

theorem ofSchema_of_types (hint : String) {types : List Json}
    (h : members.get? "type" = some (.arr types)) :
    ofSchema hint (.obj members) = "Union[" ++ Text.join ", " (types.map fun type =>
      ofSchema hint (.obj (Members.insert members "type" type))) ++ "]" := by
  rw [ofSchema]
  dsimp only
  rw [h]
  dsimp only
  rw [ofType, ofTypes_eq_map]
  simp only [ofSchema_insert_type]

end ColumnType

/-! ## Schemas that are told by their type -/

/-- The keys that the engine goes by before it looks at the type of a schema. -/
def overridingKeys : List String := ["$ref", "const", "enum", "anyOf", "oneOf", "allOf"]

/-- A schema that has none of them. -/
def ToldByType (members : Members) : Prop := ∀ key ∈ overridingKeys, members.get? key = none

/-- A schema for an object, which says so or has a list of properties. -/
def ForObject (members : Members) : Prop :=
  members.get? "type" = some (.str "object") ∨
    members.get? "type" = none ∧ members.hasKey "properties" = true

theorem ToldByType.normalizeMembers (h : ToldByType members) :
    ToldByType (normalizeMembers members) :=
  fun key hkey => get?_normalizeMembers_eq_none (h key hkey)

theorem ToldByType.insert_type (h : ToldByType members) (type : Json) :
    ToldByType (Members.insert members "type" type) := by
  intro key hkey
  have hne : key ≠ "type" := by
    rintro rfl
    exact absurd hkey (by decide)
  rw [Members.get?_insert_of_ne hne]
  exact h key hkey

theorem ForObject.normalizeMembers (h : ForObject members) :
    ForObject (normalizeMembers members) := by
  unfold ForObject Members.hasKey at *
  rw [get?_normalizeMembers (by decide), get?_normalizeMembers (by decide), Option.isSome_map]
  exact h.imp (fun h => by rw [h]; rfl) fun h => ⟨by rw [h.1]; rfl, h.2⟩

/-- The engine types such a schema by its type. -/
theorem ToldByType.schemaType {typeOf fieldType : TypeOf} (h : ToldByType members) :
    schemaType document typeOf fieldType (.obj members) hint =
      typedSchema typeOf fieldType members hint := by
  have hnone : ∀ key ∈ overridingKeys, arrayUnder? members key = none := fun key hkey => by
    rw [arrayUnder?, h key hkey, Option.bind_none]
  have href : (Json.obj members).getStr? "$ref" = none := by
    rw [Json.getStr?, Json.get?, h "$ref" (by decide), Option.bind_none]
  unfold Schema.schemaType
  simp only [Json.obj?, href, h "const" (by decide), hnone "enum" (by decide),
    hnone "anyOf" (by decide), hnone "oneOf" (by decide), hnone "allOf" (by decide)]

theorem ForObject.typedSchema {typeOf fieldType : TypeOf} (h : ForObject members) :
    typedSchema typeOf fieldType members hint = objectType typeOf fieldType members hint := by
  unfold Schema.typedSchema
  rcases h with htype | ⟨htype, hproperties⟩
  · rw [htype]
    rfl
  · rw [htype]
    exact if_pos hproperties

/-- Schemas of which the engine and the table make the same classes. -/
inductive Agreed : Json → Prop where
  /-- The table names no class, whatever the engine declares. -/
  | classless {schema : Json} (h : ∀ hint, '"' ∉ (ColumnType.ofSchema hint schema).toList) :
      Agreed schema
  /-- One of several types. -/
  | several {members : Members} {types : List Json} (hplain : ToldByType members)
      (htype : members.get? "type" = some (.arr types))
      (htexts : ∀ type ∈ types, ∃ text, type = .str text)
      (h : ∀ type ∈ types, Agreed (.obj (members.insert "type" type))) : Agreed (.obj members)
  /-- A list of items that are all alike. -/
  | list {members inner : Members} (hplain : ToldByType members)
      (htype : members.get? "type" = some (.str "array"))
      (hitems : members.get? "items" = some (.obj inner)) (h : Agreed (.obj inner)) :
      Agreed (.obj members)
  /-- A list of which each item has a schema of its own. -/
  | tuple {members : Members} {schemas : List Json} (hplain : ToldByType members)
      (htype : members.get? "type" = some (.str "array"))
      (hitems : members.get? "items" = some (.arr schemas))
      (h : ∀ schema ∈ schemas, Agreed schema) :
      Agreed (.obj members)
  /-- A mapping whose values a pattern describes, and nothing else does. -/
  | mapping {members inner patterns : Members} {pattern : String} (hplain : ToldByType members)
      (htype : ForObject members) (hproperties : hasProperties members = false)
      (hother : ∀ value, members.get? "additionalProperties" = some value → value.isObject = false)
      (hpattern : members.get? "patternProperties" =
        some (.obj ((pattern, .obj inner) :: patterns)))
      (h : Agreed (.obj inner)) : Agreed (.obj members)
  /-- An object with properties. -/
  | record {members : Members} (hplain : ToldByType members) (htype : ForObject members)
      (hproperties : hasProperties members = true)
      (hpattern : ColumnType.Unpatterned members) : Agreed (.obj members)

theorem get?_of_hasProperties (h : hasProperties members = true) :
    ∃ property properties, members.get? "properties" = some (.obj (property :: properties)) := by
  unfold hasProperties at h
  split at h
  · exact ⟨_, _, ‹_›⟩
  · exact Bool.noConfusion h

/-- What the table takes for an object with properties, the engine takes for one too. -/
theorem ForObject.objectProperties? (h : ForObject members) (hp : hasProperties members = true) :
    ∃ properties, objectProperties? members = some properties := by
  obtain ⟨property, properties, hget⟩ := get?_of_hasProperties hp
  refine ⟨property :: properties, ?_⟩
  unfold Schema.objectProperties?
  rw [hget]
  rcases h with htype | ⟨htype, -⟩
  · simp [htype, Json.obj?, Json.isText]
  · simp [htype, Json.obj?]

theorem objectProperties?_eq_none (h : hasProperties members = false) :
    objectProperties? members = none := by
  refine Option.eq_none_iff_forall_ne_some.mpr fun properties hp => ?_
  have hget := get?_of_objectProperties? hp
  cases properties with
  | nil => simp [objectProperties?, hget, Json.obj?] at hp
  | cons property properties =>
      rw [hasProperties, hget] at h
      exact Bool.noConfusion h

/-- The values of a mapping are described by the first pattern, if nothing else describes them. -/
theorem valueSchema?_normalizeMembers {inner patterns : Members} {pattern : String}
    (hother : ∀ value, members.get? "additionalProperties" = some value → value.isObject = false)
    (hpattern : members.get? "patternProperties" =
      some (.obj ((pattern, .obj inner) :: patterns))) :
    valueSchema? (normalizeMembers members) = some (normalizeEnums (.obj inner)) := by
  have hnone : ((members.get? "additionalProperties").map normalizeEnums).filter Json.isObject =
      none := by
    refine Option.eq_none_iff_forall_ne_some.mpr fun value hvalue => ?_
    obtain ⟨hmapped, hobject⟩ := Option.filter_eq_some_iff.mp hvalue
    obtain ⟨given, hgiven, rfl⟩ := Option.map_eq_some_iff.mp hmapped
    rw [isObject_normalizeEnums, hother given hgiven] at hobject
    exact Bool.noConfusion hobject
  unfold valueSchema?
  rw [get?_normalizeMembers (by decide), get?_normalizeMembers (by decide), hnone, hpattern]
  simp [normalizeEnums, Json.obj?, normalizeMembers_eq_map, normalizedUnder]

/-- Several types are texts, and stay what they are. -/
theorem get?_type_normalizeMembers {types : List Json}
    (htype : members.get? "type" = some (.arr types))
    (htexts : ∀ type ∈ types, ∃ text, type = .str text) :
    Members.get? (normalizeMembers members) "type" = some (.arr types) := by
  have hsame : types.map normalizeEnums = types := by
    conv => rhs; rw [← List.map_id types]
    refine List.map_congr_left fun type hm => ?_
    obtain ⟨text, rfl⟩ := htexts type hm
    rfl
  rw [get?_normalizeMembers (by decide), htype, Option.map_some, normalizeEnums,
    normalizeItems_eq_map, hsame]

/-- The schema with one of its types, normalized. -/
theorem insert_text_normalizeMembers (members : Members) (text : String) :
    Json.obj (Members.insert (normalizeMembers members) "type" (.str text)) =
      normalizeEnums (.obj (Members.insert members "type" (.str text))) := by
  rw [normalizeEnums, ← insert_type_normalizeMembers]
  rfl

/-! ## What the engine makes sure of -/

theorem quote_not_mem_append {more : String} (h : '"' ∉ hint.toList) (hmore : Suffix more) :
    '"' ∉ (hint ++ more).toList := by
  rw [String.toList_append, List.mem_append]
  rintro (hm | hm)
  · exact h hm
  · exact absurd (List.all_eq_true.mp hmore.alphanum _ hm) (by decide)

/-- Typing at a depth makes sure of what it does with room for a level; without there is no end. -/
theorem takes_of_room {schema : Json} {names : List String}
    (h : ∀ room depth, Takes names (schemaType document (typeAt document room (depth + 1))
      (typeAt document (room - 1) (depth + 2)) schema hint)) (room depth : Nat) :
    Takes names (typeAt document room depth schema hint) := by
  cases room with
  | zero => exact takes_throw _
  | succ room =>
      rw [typeAt_succ]
      exact h room depth

/-- What the table quotes for a schema is quoted in pairs, and the engine makes sure of it. -/
structure Assured (schema : Json) (hint : String) : Prop where
  paired : Paired (ColumnType.ofSchema hint schema)
  takes : ∀ document room depth, Takes (quotedNames (ColumnType.ofSchema hint schema))
    (typeAt document room depth (normalizeEnums schema) hint)

theorem assured_several {types : List Json} (hplain : ToldByType members)
    (htype : members.get? "type" = some (.arr types))
    (htexts : ∀ type ∈ types, ∃ text, type = .str text)
    (h : ∀ type ∈ types, Assured (.obj (members.insert "type" type)) hint) :
    Assured (.obj members) hint := by
  let texts := types.map fun type =>
    ColumnType.ofSchema hint (.obj (Members.insert members "type" type))
  have hpaired : ∀ text ∈ texts, Paired text := by
    intro text hm
    obtain ⟨type, htype, rfl⟩ := List.mem_map.mp hm
    exact (h type htype).paired
  have hjoin := paired_join (show '"' ∉ ", ".toList by decide) hpaired
  have htext := ColumnType.ofSchema_of_types hint htype
  -- both sides go through the types one by one, and the parts agree by hypothesis
  refine ⟨?_, fun document => takes_of_room fun room depth => ?_⟩
  · rw [htext]
    exact hjoin.between (by decide) (by decide)
  · rw [htext, quotedNames_between hjoin (by decide) (by decide),
      quotedNames_join (by decide) hpaired, List.flatMap_map, normalizeEnums,
      hplain.normalizeMembers.schemaType, typedSchema,
      get?_type_normalizeMembers htype htexts]
    refine ((Takes.mapM fun type hm => ?_).bind fun exprs => takes_pure _).mono
      (List.subset_append_left _ _)
    obtain ⟨text, rfl⟩ := htexts type hm
    rw [insert_text_normalizeMembers]
    exact (h _ hm).takes document room (depth + 1)

theorem assured_list {inner : Members} (hplain : ToldByType members)
    (htype : members.get? "type" = some (.str "array"))
    (hitems : members.get? "items" = some (.obj inner))
    (h : Assured (.obj inner) (hint ++ "Item")) : Assured (.obj members) hint := by
  have htext : ColumnType.ofSchema hint (.obj members) =
      "List[" ++ ColumnType.ofSchema (hint ++ "Item") (.obj inner) ++ "]" := by
    rw [ColumnType.ofSchema]
    dsimp only
    rw [htype]
    dsimp only
    rw [ColumnType.ofType, if_pos rfl, ColumnType.listType_eq, hitems]
  refine ⟨?_, fun document => takes_of_room fun room depth => ?_⟩
  · rw [htext]
    exact h.paired.between (by decide) (by decide)
  · rw [htext, quotedNames_between h.paired (by decide) (by decide), normalizeEnums,
      hplain.normalizeMembers.schemaType, typedSchema, get?_normalizeMembers (by decide), htype]
    show Takes _ (arrayType _ _ _)
    rw [arrayType, get?_normalizeMembers (by decide), hitems]
    exact ((h.takes document room (depth + 1)).bind fun type => takes_pure _).mono
      (List.subset_append_left _ _)

theorem assured_tuple {schemas : List Json} (hplain : ToldByType members)
    (htype : members.get? "type" = some (.str "array"))
    (hitems : members.get? "items" = some (.arr schemas))
    (h : ∀ schema ∈ schemas, ∀ n : Nat, Assured schema (hint ++ "Item" ++ toString n)) :
    Assured (.obj members) hint := by
  let texts := schemas.zipIdx.map fun item =>
    ColumnType.ofSchema (hint ++ "Item" ++ toString item.2) item.1
  have hpaired : ∀ text ∈ texts, Paired text := by
    intro text hm
    obtain ⟨item, hitem, rfl⟩ := List.mem_map.mp hm
    exact (h item.1 (List.fst_mem_of_mem_zipIdx hitem) item.2).paired
  have hjoin := paired_join (show '"' ∉ ", ".toList by decide) hpaired
  have htext : ColumnType.ofSchema hint (.obj members) =
      "Tuple[" ++ Text.join ", " texts ++ "]" := by
    rw [ColumnType.ofSchema]
    dsimp only
    rw [htype]
    dsimp only
    rw [ColumnType.ofType, if_pos rfl, ColumnType.listType_eq, hitems]
    dsimp only
    rw [ColumnType.tupleTypes_eq_map]
  -- an item is typed at its place on both sides, and normalizing keeps the places
  refine ⟨?_, fun document => takes_of_room fun room depth => ?_⟩
  · rw [htext]
    exact hjoin.between (by decide) (by decide)
  · rw [htext, quotedNames_between hjoin (by decide) (by decide),
      quotedNames_join (by decide) hpaired, List.flatMap_map, normalizeEnums,
      hplain.normalizeMembers.schemaType, typedSchema,
      get?_normalizeMembers (by decide), htype]
    show Takes _ (arrayType _ _ _)
    rw [arrayType, get?_normalizeMembers (by decide), hitems, Option.map_some, normalizeEnums]
    dsimp only
    rw [normalizeItems_eq_map, List.zipIdx_map, List.mapM_map]
    refine ((Takes.mapM fun item hm => ?_).bind fun types => takes_pure _).mono
      (List.subset_append_left _ _)
    exact (h item.1 (List.fst_mem_of_mem_zipIdx hm) item.2).takes document room (depth + 1)

theorem ofSchema_of_forObject (htype : ForObject members) :
    ColumnType.ofSchema hint (.obj members) =
      ColumnType.objectType hint (hasProperties members) members := by
  rw [ColumnType.ofSchema]
  dsimp only
  rcases htype with htype | ⟨htype, -⟩
  · rw [htype]
    rfl
  · rw [htype]

theorem assured_mapping {inner patterns : Members} {pattern : String} (hplain : ToldByType members)
    (htype : ForObject members) (hproperties : hasProperties members = false)
    (hother : ∀ value, members.get? "additionalProperties" = some value → value.isObject = false)
    (hpattern : members.get? "patternProperties" = some (.obj ((pattern, .obj inner) :: patterns)))
    (h : Assured (.obj inner) (hint ++ "Value")) : Assured (.obj members) hint := by
  have htext : ColumnType.ofSchema hint (.obj members) =
      "Dict[str, " ++ ColumnType.ofSchema (hint ++ "Value") (.obj inner) ++ "]" := by
    rw [ofSchema_of_forObject htype, ColumnType.objectType_of_pattern _ _ hpattern]
  have hnone : objectProperties? (normalizeMembers members) = none := by
    rw [objectProperties?_normalizeMembers, objectProperties?_eq_none hproperties, Option.map_none]
  refine ⟨?_, fun document => takes_of_room fun room depth => ?_⟩
  · rw [htext]
    exact h.paired.between (by decide) (by decide)
  · rw [htext, quotedNames_between h.paired (by decide) (by decide), normalizeEnums,
      hplain.normalizeMembers.schemaType, htype.normalizeMembers.typedSchema, objectType, hnone,
      valueSchema?_normalizeMembers hother hpattern]
    exact ((h.takes document room (depth + 1)).bind fun type => takes_pure _).mono
      (List.subset_append_left _ _)

theorem assured_record (hplain : ToldByType members) (htype : ForObject members)
    (hproperties : hasProperties members = true) (hpattern : ColumnType.Unpatterned members)
    (hhint : '"' ∉ hint.toList) : Assured (.obj members) hint := by
  have htext : ColumnType.ofSchema hint (.obj members) = "\"" ++ hint ++ "\"" := by
    rw [ofSchema_of_forObject htype, ColumnType.objectType_of_unpatterned _ _ hpattern, hproperties,
      if_pos rfl]
  obtain ⟨properties, hp⟩ := htype.objectProperties? hproperties
  refine ⟨?_, fun document => takes_of_room fun room depth => ?_⟩
  · rw [htext]
    exact paired_quoted hhint
  · have hfields := fun (schema : Json) hint =>
      takes_typeAt document (room - 1) (depth + 2) schema hint
    rw [htext, quotedNames_quoted hhint, normalizeEnums, hplain.normalizeMembers.schemaType,
      htype.normalizeMembers.typedSchema, objectType, objectProperties?_normalizeMembers, hp]
    refine ((takes_claim hint).bind fun name =>
      (compositional_takes.declareRecord hfields name _ _).bind fun _ => takes_pure _).mono
        (List.subset_append_left _ _)

/-- **What the table quotes, the engine makes sure of.** -/
theorem Agreed.assured {schema : Json} (h : Agreed schema) :
    ∀ {hint : String}, '"' ∉ hint.toList → Assured schema hint := by
  induction h with
  | @classless schema h =>
      intro hint _
      refine ⟨paired_of_not_mem (h hint), fun document room depth => ?_⟩
      rw [quotedNames_of_not_mem (h hint)]
      exact takes_typeAt document room depth _ hint
  | several hplain htype htexts _ ih =>
      exact fun hhint => assured_several hplain htype htexts fun type hm => ih type hm hhint
  | list hplain htype hitems _ ih =>
      exact fun hhint => assured_list hplain htype hitems (ih (quote_not_mem_append hhint .item))
  | tuple hplain htype hitems _ ih =>
      exact fun hhint => assured_tuple hplain htype hitems fun schema hm n =>
        ih schema hm (quote_not_mem_append (quote_not_mem_append hhint .item) (.number n))
  | mapping hplain htype hproperties hother hpattern _ ih =>
      exact fun hhint => assured_mapping hplain htype hproperties hother hpattern
        (ih (quote_not_mem_append hhint .value))
  | record hplain htype hproperties hpattern =>
      exact fun hhint => assured_record hplain htype hproperties hpattern hhint

/-! ## Objects in columns -/

theorem quote_not_mem_freshName (h : '"' ∉ hint.toList) (taken : List String) :
    '"' ∉ (freshName taken hint).toList := by
  rcases freshName_cases taken hint with heq | ⟨n, heq⟩
  · rwa [heq]
  · rw [heq]
    exact quote_not_mem_append h (.number n)

/-- A schema that is typed in some scope has been typed with room for a level. -/
theorem exists_room_of_typeAt {room depth : Nat} {schema : Json} {before after : Scope}
    {type : TypeExpr} (hrun : typeAt document room depth schema hint before = .ok (type, after)) :
    ∃ room depth, schemaType document (typeAt document room (depth + 1))
      (typeAt document (room - 1) (depth + 2)) schema hint before = .ok (type, after) := by
  cases room with
  | zero => exact nomatch hrun
  | succ room =>
      rw [typeAt_succ] at hrun
      exact ⟨room, depth, hrun⟩

/-- The engine refers to an object by the name that it claims for it. -/
theorem ref_of_forObject {room depth : Nat} {before after : Scope} {type : TypeExpr}
    (hplain : ToldByType members) (htype : ForObject members)
    (hproperties : hasProperties members = true)
    (hrun : typeAt document room depth (normalizeEnums (.obj members)) hint before =
      .ok (type, after)) : ∃ taken, type = .ref (freshName taken hint) := by
  obtain ⟨properties, hp⟩ := htype.objectProperties? hproperties
  obtain ⟨room, depth, hrun⟩ := exists_room_of_typeAt hrun
  rw [normalizeEnums, hplain.normalizeMembers.schemaType, htype.normalizeMembers.typedSchema,
    objectType, objectProperties?_normalizeMembers, hp] at hrun
  obtain ⟨name, claimed, hclaim, hrun⟩ := run_bind_eq_ok hrun
  obtain ⟨_, between, -, hrun⟩ := run_bind_eq_ok hrun
  obtain ⟨rfl, -⟩ := Prod.mk.inj (Except.ok.inj hrun)
  obtain ⟨rfl, -⟩ := Prod.mk.inj (Except.ok.inj hclaim)
  exact ⟨before.taken, rfl⟩

/-- For other types than those of lists and objects there is no class. -/
theorem basic_of_text {room depth : Nat} {before after : Scope} {type : TypeExpr} {text : String}
    (hplain : ToldByType members) (htype : members.get? "type" = some (.str text))
    (harray : text ≠ "array") (hobject : text ≠ "object")
    (hrun : typeAt document room depth (normalizeEnums (.obj members)) hint before =
      .ok (type, after)) : type.isAtom = true ∧ type.references = [] := by
  obtain ⟨room, depth, hrun⟩ := exists_room_of_typeAt hrun
  rw [normalizeEnums, hplain.normalizeMembers.schemaType, typedSchema,
    get?_normalizeMembers (by decide), htype, Option.map_some, normalizeEnums_str] at hrun
  dsimp only at hrun
  split at hrun
  case h_6 => exact absurd rfl harray
  case h_7 => exact absurd rfl hobject
  all_goals
    obtain ⟨rfl, -⟩ := Prod.mk.inj (Except.ok.inj hrun)
    exact ⟨rfl, rfl⟩

/-- Any name stands for one of a few types. -/
theorem ofPrimitive_mem (typeName : String) :
    TypeName.ofPrimitive typeName ∈ "Any" :: TypeName.primitives.map Prod.snd := by
  unfold TypeName.ofPrimitive
  cases h : TypeName.primitives.lookup typeName with
  | none => exact List.mem_cons_self
  | some type =>
      obtain ⟨before, behind, hmem, -⟩ := List.lookup_eq_some_iff.mp h
      simp [hmem]

theorem quote_not_mem_ofPrimitive (typeName : String) :
    '"' ∉ (TypeName.ofPrimitive typeName).toList := by
  have hall : ∀ type ∈ "Any" :: TypeName.primitives.map Prod.snd, '"' ∉ type.toList := by decide
  exact hall _ (ofPrimitive_mem typeName)

/-- The table names no class for such types either. -/
theorem quote_not_mem_ofType (list object : Unit → String) {text : String} (harray : text ≠ "array")
    (hobject : text ≠ "object") : '"' ∉ (ColumnType.ofType list object (.str text)).toList := by
  rw [ColumnType.ofType, if_neg harray, if_neg hobject]
  split
  · decide
  · exact quote_not_mem_ofPrimitive text

/-- A column's object and the type that the engine has given it: the class that the table is told
of is all that it names, and the engine names one if the table does. -/
structure Direct (schema : Json) (hint : String) (type : TypeExpr) : Prop where
  simple : type.Simple
  named : ∀ name ∈ type.references, ∃ taken, name = freshName taken hint
  only : ∀ {other : String}, '"' ∉ other.toList →
    quotedNames (ColumnType.ofSchema other schema) ⊆ [other]
  some : ∀ {other : String}, '"' ∉ other.toList → type.references = [] →
    quotedNames (ColumnType.ofSchema other schema) = []

theorem unpatterned_of_get? (h : members.get? "patternProperties" = none) :
    ColumnType.Unpatterned members :=
  fun m hm hkey => absurd hkey (Members.get?_eq_none_iff.mp h m hm)

/-- Of one of several types the table quotes the class, if it is that of objects. -/
theorem quotedNames_of_text {text other : String} (hproperties : hasProperties members = true)
    (hpattern : members.get? "patternProperties" = none) (hother : '"' ∉ other.toList)
    (harray : text ≠ "array") :
    Paired (ColumnType.ofSchema other (.obj (Members.insert members "type" (.str text)))) ∧
      quotedNames (ColumnType.ofSchema other (.obj (Members.insert members "type" (.str text)))) =
        if text = "object" then [other] else [] := by
  rw [ColumnType.ofSchema_insert_type]
  by_cases hobject : text = "object"
  · rw [if_pos hobject, ColumnType.ofType, if_neg harray, if_pos hobject,
      ColumnType.objectType_of_unpatterned _ _ (unpatterned_of_get? hpattern), hproperties,
      if_pos rfl]
    exact ⟨paired_quoted hother, quotedNames_quoted hother⟩
  · rw [if_neg hobject]
    have hplain := quote_not_mem_ofType (fun _ => ColumnType.listType other members)
      (fun _ => ColumnType.objectType other (hasProperties members) members) harray hobject
    exact ⟨paired_of_not_mem hplain, quotedNames_of_not_mem hplain⟩

/-- What the engine and the table make of one of several types. -/
structure Paralleled (members : Members) (hint : String) (type : Json) (expr : TypeExpr) :
    Prop where
  atom : expr.isAtom = true
  named : ∀ name ∈ expr.references, ∃ taken, name = freshName taken hint
  shown : ∀ {other : String}, '"' ∉ other.toList →
    Paired (ColumnType.ofSchema other (.obj (Members.insert members "type" type))) ∧
    quotedNames (ColumnType.ofSchema other (.obj (Members.insert members "type" type))) =
      expr.references.map fun _ => other

theorem paralleled_of_text {room depth : Nat} {before after : Scope} {expr : TypeExpr}
    {text : String} (hplain : ToldByType members) (hproperties : hasProperties members = true)
    (hpattern : members.get? "patternProperties" = none) (harray : text ≠ "array")
    (hrun : typeAt document room depth
      (normalizeEnums (.obj (Members.insert members "type" (.str text)))) hint before =
        .ok (expr, after)) : Paralleled members hint (.str text) expr := by
  have htype := Members.get?_insert_self members "type" (.str text)
  have hshown : ∀ {other : String}, '"' ∉ other.toList → _ := fun hother =>
    quotedNames_of_text hproperties hpattern hother harray
  by_cases hobject : text = "object"
  · subst text
    obtain ⟨taken, rfl⟩ := ref_of_forObject (hplain.insert_type _) (.inl htype)
      ((ColumnType.hasProperties_insert_type _ _).trans hproperties) hrun
    refine ⟨rfl, fun name hm => ⟨taken, ?_⟩, fun hother => hshown hother⟩
    simpa [TypeExpr.references] using hm
  · obtain ⟨hatom, hnone⟩ := basic_of_text (hplain.insert_type _) htype harray hobject hrun
    refine ⟨hatom, fun name hm => absurd (hnone ▸ hm) List.not_mem_nil, fun hother => ?_⟩
    rw [hnone]
    simpa [hobject] using hshown hother

/-- **Several types are unfolded one by one:** each has an expression that parallels it, and each
expression is one of a type. -/
theorem exists_paralleled {types : List Json} {room depth : Nat} {before after : Scope}
    {type : TypeExpr} (hplain : ToldByType members)
    (htype : members.get? "type" = some (.arr types))
    (htexts : ∀ type ∈ types, ∃ text, type = .str text)
    (harray : Json.str "array" ∉ types) (hproperties : hasProperties members = true)
    (hpattern : members.get? "patternProperties" = none)
    (hrun : typeAt document room depth (normalizeEnums (.obj members)) hint before =
      .ok (type, after)) :
    ∃ exprs, type = TypeExpr.oneOf exprs ∧
      (∀ type ∈ types, ∃ expr ∈ exprs, Paralleled members hint type expr) ∧
      ∀ expr ∈ exprs, ∃ type ∈ types, Paralleled members hint type expr := by
  obtain ⟨room, depth, hrun⟩ := exists_room_of_typeAt hrun
  rw [normalizeEnums, hplain.normalizeMembers.schemaType, typedSchema,
    get?_type_normalizeMembers htype htexts] at hrun
  obtain ⟨exprs, last, hexprs, hrun⟩ := run_bind_eq_ok hrun
  obtain ⟨rfl, rfl⟩ := Prod.mk.inj (Except.ok.inj hrun)
  -- a step of the unfolding is the run on one type alone
  have hparallel : ∀ type ∈ types, ∀ expr, (∃ start between, typeAt document room (depth + 1)
      (.obj (Members.insert (normalizeMembers members) "type" type)) hint start =
        .ok (expr, between) ∧ between.taken ⊆ last.taken) → Paralleled members hint type expr := by
    rintro type hm expr ⟨start, between, hstep, -⟩
    obtain ⟨text, rfl⟩ := htexts type hm
    rw [insert_text_normalizeMembers] at hstep
    refine paralleled_of_text hplain hproperties hpattern ?_ hstep
    rintro rfl
    exact harray hm
  have hsteps := forall₂_mapM (fun type => takes_typeAt document room (depth + 1) _ hint) hexprs
  obtain ⟨hforth, hback⟩ := exists_of_forall₂ hsteps
  refine ⟨exprs, rfl, fun type hm => ?_, fun expr hm => ?_⟩
  · obtain ⟨expr, hexpr, hstep⟩ := hforth type hm
    exact ⟨expr, hexpr, hparallel type hm expr hstep⟩
  · obtain ⟨type, htypes, hstep⟩ := hback expr hm
    exact ⟨type, htypes, hparallel type htypes expr hstep⟩

/-- What the table quotes of several types is what it quotes of each of them. -/
theorem quotedNames_several {types : List Json} {other : String}
    (htype : members.get? "type" = some (.arr types))
    (hpaired : ∀ type ∈ types,
      Paired (ColumnType.ofSchema other (.obj (Members.insert members "type" type)))) :
    quotedNames (ColumnType.ofSchema other (.obj members)) = types.flatMap fun type =>
      quotedNames (ColumnType.ofSchema other (.obj (Members.insert members "type" type))) := by
  have hpaired : ∀ text ∈ types.map fun type =>
      ColumnType.ofSchema other (.obj (Members.insert members "type" type)), Paired text := by
    intro text hm
    obtain ⟨type, htypes, rfl⟩ := List.mem_map.mp hm
    exact hpaired type htypes
  rw [ColumnType.ofSchema_of_types other htype,
    quotedNames_between (paired_join (by decide) hpaired) (by decide) (by decide),
    quotedNames_join (by decide) hpaired, List.flatMap_map]

theorem direct_several {types : List Json} {room depth : Nat} {before after : Scope}
    {type : TypeExpr} (hplain : ToldByType members)
    (htype : members.get? "type" = some (.arr types))
    (htexts : ∀ type ∈ types, ∃ text, type = .str text)
    (harray : Json.str "array" ∉ types) (hproperties : hasProperties members = true)
    (hpattern : members.get? "patternProperties" = none) (hhint : '"' ∉ hint.toList)
    (hrun : typeAt document room depth (normalizeEnums (.obj members)) hint before =
      .ok (type, after)) : Direct (.obj members) hint type := by
  obtain ⟨exprs, rfl, hforth, hback⟩ :=
    exists_paralleled hplain htype htexts harray hproperties hpattern hrun
  have hatoms : ∀ expr ∈ exprs, expr.isAtom = true := fun expr hm =>
    (hback expr hm).elim fun _ h => h.2.atom
  have hnames : ∀ expr ∈ exprs, ∀ name ∈ expr.references, '"' ∉ name.toList := by
    intro expr hm name hname
    obtain ⟨type, -, hp⟩ := hback expr hm
    obtain ⟨taken, rfl⟩ := hp.named name hname
    exact quote_not_mem_freshName hhint taken
  have hquoted : ∀ {other : String}, '"' ∉ other.toList →
      quotedNames (ColumnType.ofSchema other (.obj members)) = types.flatMap fun type =>
        quotedNames (ColumnType.ofSchema other (.obj (Members.insert members "type" type))) :=
    fun hother => quotedNames_several htype fun type hm =>
      (hforth type hm).elim fun _ h => (h.2.shown hother).1
  constructor
  case simple => exact TypeExpr.simple_oneOf hatoms
  case named =>
    intro name hm
    obtain ⟨expr, hexprs, hname⟩ := List.mem_flatMap.mp (TypeExpr.references_oneOf exprs hm)
    obtain ⟨type, -, hp⟩ := hback expr hexprs
    exact hp.named name hname
  case only =>
    intro other hother name hm
    rw [hquoted hother] at hm
    obtain ⟨type, htypes, hm⟩ := List.mem_flatMap.mp hm
    obtain ⟨expr, -, hp⟩ := hforth type htypes
    rw [(hp.shown hother).2] at hm
    obtain ⟨_, -, rfl⟩ := List.mem_map.mp hm
    exact List.mem_singleton_self _
  case some =>
    intro other hother hnone
    rw [hquoted hother]
    refine List.flatMap_eq_nil_iff.mpr fun type htypes => ?_
    obtain ⟨expr, hm, hp⟩ := hforth type htypes
    rw [(hp.shown hother).2, List.map_eq_nil_iff]
    -- a name in the expression of one type would be one of the whole type
    refine List.eq_nil_iff_forall_not_mem.mpr fun name hname => ?_
    have hmem := TypeExpr.mem_references_oneOf hatoms hnames hm hname
    rw [hnone] at hmem
    exact absurd hmem List.not_mem_nil

theorem direct_record {room depth : Nat} {before after : Scope} {type : TypeExpr}
    (hplain : ToldByType members) (htype : ForObject members)
    (hproperties : hasProperties members = true) (hpattern : ColumnType.Unpatterned members)
    (hrun : typeAt document room depth (normalizeEnums (.obj members)) hint before =
      .ok (type, after)) : Direct (.obj members) hint type := by
  obtain ⟨taken, rfl⟩ := ref_of_forObject hplain htype hproperties hrun
  refine ⟨.inl rfl, fun name hm => ⟨taken, by simpa [TypeExpr.references] using hm⟩,
    fun {other} hother => ?_, fun _ hnone => absurd hnone (by simp [TypeExpr.references])⟩
  rw [ofSchema_of_forObject htype, ColumnType.objectType_of_unpatterned _ _ hpattern, hproperties,
    if_pos rfl, quotedNames_quoted hother]
  exact List.Subset.refl _

/-- What makes a schema one for an object itself, where it is told by its type. -/
theorem isDirectObject_eq_true (h : Columns.isDirectObject (.obj members) = true) :
    members.get? "patternProperties" = none ∧ hasProperties members = true ∧
      members.get? "type" ≠ some (.str "array") ∧
      ∀ types, members.get? "type" = some (.arr types) → Json.str "array" ∉ types := by
  simp only [Columns.isDirectObject, Bool.and_eq_true, Bool.not_eq_true', Json.get?,
    Option.isNone_iff_eq_none, Json.obj?, Option.getD_some] at h
  obtain ⟨⟨hlist, hpattern⟩, hproperties⟩ := h
  refine ⟨hpattern, hproperties, fun htype => ?_, fun types htype hm => ?_⟩
  · rw [htype] at hlist
    exact Bool.noConfusion hlist
  · rw [htype] at hlist
    have hnone := List.any_eq_false.mp hlist (.str "array") hm
    exact hnone rfl

/-- **An object in a column has a type of which its class can be read,** unless the table names no
class for it at all. -/
theorem Agreed.direct {schema : Json} {room depth : Nat} {before after : Scope} {type : TypeExpr}
    (h : Agreed schema) (hdirect : Columns.isDirectObject schema = true) (hhint : '"' ∉ hint.toList)
    (hrun : typeAt document room depth (normalizeEnums schema) hint before = .ok (type, after)) :
    (∀ other, quotedNames (ColumnType.ofSchema other schema) = []) ∨ Direct schema hint type := by
  cases h with
  | classless h => exact .inl fun other => quotedNames_of_not_mem (h other)
  | several hplain htype htexts _ =>
      obtain ⟨hpattern, hproperties, -, harray⟩ := isDirectObject_eq_true hdirect
      exact .inr (direct_several hplain htype htexts (harray _ htype) hproperties hpattern hhint
        hrun)
  | list _ htype _ _ | tuple _ htype _ _ =>
      obtain ⟨-, -, harray, -⟩ := isDirectObject_eq_true hdirect
      exact absurd htype harray
  | mapping _ _ _ _ hpattern _ =>
      obtain ⟨hnone, -⟩ := isDirectObject_eq_true hdirect
      exact nomatch hnone.symm.trans hpattern
  | record hplain htype hproperties hpattern =>
      exact .inr (direct_record hplain htype hproperties hpattern hrun)

/-- The engine refers to an object in a column, and to nothing else, if its schema is agreed. -/
theorem Agreed.ref {room depth : Nat} {before after : Scope} {type : TypeExpr}
    (h : Agreed (.obj members)) (hdirect : Columns.isDirectObject (.obj members) = true)
    (hobject : ForObject members)
    (hrun : typeAt document room depth (normalizeEnums (.obj members)) hint before =
      .ok (type, after)) : ∃ taken, type = .ref (freshName taken hint) := by
  obtain ⟨hpattern, hproperties, -⟩ := isDirectObject_eq_true hdirect
  cases h with
  | classless h =>
      have hquote := h hint
      rw [ofSchema_of_forObject hobject,
        ColumnType.objectType_of_unpatterned _ _ (unpatterned_of_get? hpattern), hproperties,
        if_pos rfl] at hquote
      exact absurd (by simp) hquote
  | several _ htype | list _ htype | tuple _ htype =>
      rcases hobject with heq | ⟨heq, -⟩
      all_goals exact absurd (heq.symm.trans htype) (by simp)
  | mapping _ _ _ _ hget => exact nomatch hpattern.symm.trans hget
  | record hplain => exact ref_of_forObject hplain hobject hproperties hrun

end StubGen
