import StubGen.Proofs.Schema.FieldKeys
import StubGen.Proofs.Schema.Merging
import StubGen.Proofs.Stub.Tables

/-!
# Filters of tables

Any part of a row and the filter on it are declared with one line for each key, as a class or as a
call, and either is read back key by key (`RecordType.read?`). Which columns have a filter is told
from the text of their types. Only the words for simple types make a text that is taken for one, and
no type has a line end, whatever its schema is. So a filter has an entry for each column that can be
filtered and the three that join filters: `tables_filter`. A column that is called like one of these
has its key twice, and the second is the one that counts: `filter_clash`.
-/

namespace StubGen

open Schema

variable {name column hint text : String} {schema : Json} {members properties : Members}

/-! ## The text of a type -/

theorem oneLine_join {sep : String} {pieces : List String} (hsep : OneLine sep)
    (h : ∀ piece ∈ pieces, OneLine piece) : OneLine (Text.join sep pieces) := by
  rw [← spelled_eq_oneLine] at *
  exact spelled_join hsep h

namespace ColumnType

theorem oneLine_ofPrimitive (typeName : String) : OneLine (TypeName.ofPrimitive typeName) := by
  have hall : ∀ type ∈ "Any" :: TypeName.primitives.map Prod.snd, OneLine type := by decide
  exact hall _ (ofPrimitive_mem typeName)

theorem oneLine_ofType (list object : Unit → String) (hlist : OneLine (list ()))
    (hobject : OneLine (object ())) (type : Json) : OneLine (ofType list object type) := by
  -- only a list of types is read further in
  induction type using Json.induction with
  | scalar type harr _ =>
      cases type with
      | str text =>
          rw [ofType]
          split
          · exact hlist
          split
          · exact hobject
          split
          · decide
          · exact oneLine_ofPrimitive text
      | arr types => cases harr
      | _ =>
          rw [ofType]
          · decide
          all_goals exact fun _ h => by cases h
  | arr types ih =>
      rw [ofType, ofTypes_eq_map]
      refine (oneLine_join (by decide) fun piece hm => ?_).between (by decide) (by decide)
      obtain ⟨type, htype, rfl⟩ := List.mem_map.mp hm
      exact ih type htype
  | obj members _ =>
      rw [ofType]
      · decide
      all_goals exact fun _ h => by cases h

/-- What is in the members of a schema has types on one line, in every place. -/
def FlatInside (members : Members) : Prop :=
  ∀ m ∈ members, ∀ inner, Json.Within inner m.2 → ∀ hint, OneLine hint →
    OneLine (ofSchema hint inner)

theorem FlatInside.oneLine_listType (h : FlatInside members) (hhint : OneLine hint) :
    OneLine (listType hint members) := by
  rw [listType_eq]
  have hitem : OneLine (hint ++ "Item") := naming_oneLine.longer hhint .item
  split
  · rename_i schemas hget
    rw [tupleTypes_eq_map]
    refine (oneLine_join (by decide) fun piece hm => ?_).between (by decide) (by decide)
    obtain ⟨⟨item, index⟩, hitems, rfl⟩ := List.mem_map.mp hm
    have hwithin : Json.Within item (.arr schemas) :=
      .item (List.fst_mem_of_mem_zipIdx hitems) .here
    exact h _ (Members.mem_of_get? hget) item hwithin _ (naming_oneLine.longer hitem (.number _))
  · rename_i inner hget
    exact (h _ (Members.mem_of_get? hget) _ .here _ hitem).between (by decide) (by decide)
  · decide

theorem FlatInside.oneLine_objectType (h : FlatInside members) (hhint : OneLine hint)
    (declared : Bool) : OneLine (objectType hint declared members) := by
  induction members with
  | nil =>
      rw [objectType]
      split
      · exact hhint.between (by decide) (by decide)
      · decide
  | cons m members ih =>
      obtain ⟨key, value⟩ := m
      have hrest := ih fun m hm => h m (List.mem_cons_of_mem _ hm)
      rw [objectType_cons]
      split
      · split
        · rename_i pattern schema rest
          have hwithin : Json.Within schema (.obj ((pattern, schema) :: rest)) :=
            .member List.mem_cons_self .here
          have hvalue :=
            h _ List.mem_cons_self schema hwithin _ (naming_oneLine.longer hhint .value)
          exact hvalue.between (by decide) (by decide)
        · exact hrest
      · exact hrest

theorem FlatInside.oneLine (h : FlatInside members) (hhint : OneLine hint) :
    OneLine (ofSchema hint (.obj members)) := by
  rw [ofSchema]
  dsimp only
  split
  · exact h.oneLine_objectType hhint _
  · exact oneLine_ofType (fun _ => listType hint members)
      (fun _ => objectType hint (hasProperties members) members) (h.oneLine_listType hhint)
      (h.oneLine_objectType hhint _) _

/-- **The type of a column is on one line,** whatever its schema is. -/
theorem oneLine_ofSchema (hhint : OneLine hint) (schema : Json) :
    OneLine (ofSchema hint schema) := by
  -- items and patterns stand below a member, so all that is inside is carried along
  have hinside : ∀ inner, Json.Within inner schema → ∀ hint, OneLine hint →
      OneLine (ofSchema hint inner) := by
    have hplain {value : Json} (hnone : value.obj? = none) (hint : String) :
        OneLine (ofSchema hint value) := by
      rw [ofSchema]
      · decide
      · rintro members rfl
        cases hnone
    induction schema using Json.induction with
    | scalar value harr hobj =>
        intro inner hw hint _
        cases hw with
        | here => exact hplain hobj hint
        | item => cases harr
        | member => cases hobj
    | arr items ih =>
        intro inner hw hint hhint
        cases hw with
        | here => exact hplain rfl hint
        | item hm hw => exact ih _ hm inner hw hint hhint
    | obj members ih =>
        intro inner hw hint hhint
        cases hw with
        | here => exact FlatInside.oneLine ih hhint
        | member hm hw => exact ih _ hm inner hw hint hhint
  exact hinside schema .here hint hhint

end ColumnType

/-! ## Which columns have a filter -/

/-- The words for simple types, each with the type of its values and the filter on them. -/
def simpleFilters : List (String × String × String) :=
  [("string", "str", "StringFilter"), ("boolean", "bool", "BooleanFilter"),
    ("integer", "int", "NumberFilter"), ("number", "float", "NumberFilter")]

/-- The simple type that a schema asks for, and its filter. -/
def simpleFilter? (schema : Json) : Option (String × String) :=
  (schema.getStr? "type").bind fun word => simpleFilters.lookup word

/-- The filter on a column behind the values that it takes: that of its simple type, and another one
where the column may be missing. Any other column that may be missing can be asked for that. -/
def ownFilter? (schema : Json) (required : Bool) : Option (String × String) :=
  match simpleFilter? schema with
  | some (type, filter) => some (type, if required then filter else "Nullable" ++ filter)
  | none => if required then none else some ("None", "NullableObjectFilter")

theorem mem_of_simpleFilter? {simple : String × String} (h : simpleFilter? schema = some simple) :
    ∃ word, (word, simple) ∈ simpleFilters := by
  obtain ⟨word, -, hlookup⟩ := Option.bind_eq_some_iff.mp h
  obtain ⟨before, behind, hmem, -⟩ := List.lookup_eq_some_iff.mp hlookup
  exact ⟨word, by simp [hmem]⟩

namespace ColumnType

/-- A text that does not begin like a simple type. -/
def Compound (text : String) : Prop := text.toList.head?.all (fun c => !c.isLower) = true

instance (text : String) : Decidable (Compound text) := inferInstanceAs (Decidable (_ = _))

theorem compound_between {lead : String} {c : Char} {cs : List Char}
    (hlead : lead.toList = c :: cs) (hc : c.isLower = false) (text tail : String) :
    Compound (lead ++ text ++ tail) := by
  simp [Compound, hlead, hc]

theorem compound_listType (hint : String) (members : Members) :
    Compound (listType hint members) := by
  rw [listType_eq]
  split
  · exact compound_between rfl (by decide) _ _
  · exact compound_between rfl (by decide) _ _
  · decide

theorem compound_objectType (hint : String) (declared : Bool) (members : Members) :
    Compound (objectType hint declared members) := by
  induction members with
  | nil =>
      rw [objectType]
      split
      · exact compound_between rfl (by decide) _ _
      · decide
  | cons m members ih =>
      obtain ⟨key, value⟩ := m
      rw [objectType_cons]
      split
      · split
        · exact compound_between rfl (by decide) _ _
        · exact ih
      · exact ih

/-- A type is simple exactly if its word is that of a simple type. -/
theorem ofType_str (list object : Unit → String) (hlist : Compound (list ()))
    (hobject : Compound (object ())) (word : String) :
    match simpleFilters.lookup word with
    | some (type, _) => ofType list object (.str word) = type
    | none => Compound (ofType list object (.str word)) := by
  rw [ofType]
  split
  · rename_i type filter hlookup
    obtain ⟨before, behind, hmem, -⟩ := List.lookup_eq_some_iff.mp hlookup
    have hentry : (word, type, filter) ∈ simpleFilters := by simp [hmem]
    have hall : ∀ entry ∈ simpleFilters, entry.1 ≠ "array" ∧ entry.1 ≠ "object" ∧
        entry.1 ≠ "null" ∧ TypeName.ofPrimitive entry.1 = entry.2.1 := by decide
    obtain ⟨harray, hobject, hnull, htype⟩ := hall _ hentry
    rw [if_neg harray, if_neg hobject, if_neg hnull, htype]
  · rename_i hlookup
    -- the words that are left are for lists, objects, nothing, or no type at all
    split
    · exact hlist
    split
    · exact hobject
    split
    · decide
    · have hnone : TypeName.primitives.lookup word = none := by
        rw [List.lookup_eq_none_iff] at hlookup ⊢
        simp_all [simpleFilters, TypeName.primitives]
      rw [TypeName.ofPrimitive, hnone]
      decide

/-- A column has the type of its simple type, or one that is not taken for simple. -/
theorem ofSchema_cases (hint : String) (schema : Json) :
    match simpleFilter? schema with
    | some (type, _) => ofSchema hint schema = type
    | none => Compound (ofSchema hint schema) := by
  cases schema with
  | obj members =>
      rw [simpleFilter?, Json.getStr?, Json.get?, ofSchema]
      -- without a type, or with several, the text is in brackets
      cases Members.get? members "type" with
      | none => exact compound_objectType hint _ members
      | some type =>
          cases type with
          | str word =>
              exact ofType_str (fun _ => listType hint members)
                (fun _ => objectType hint (hasProperties members) members)
                (compound_listType hint members) (compound_objectType hint _ members) word
          | arr types =>
              dsimp only
              rw [ofType]
              exact compound_between rfl (by decide) _ _
          | _ =>
              dsimp only
              rw [ofType]
              · exact (by decide : Compound "Any")
              all_goals exact fun _ h => by cases h
  | _ =>
      rw [ofSchema]
      · exact (by decide : Compound "Dict[str, Any]")
      · exact fun _ h => by cases h

theorem filterOf_of_compound (h : Compound text) (required : Bool) :
    Columns.filterOf text required =
      if required then none else some ("None", "NullableObjectFilter") := by
  have hne : ∀ word ∈ ["bool", "str", "int", "float"], text ≠ word := by
    have hall : ∀ word ∈ ["bool", "str", "int", "float"], ¬ Compound word := by decide
    rintro word hm rfl
    exact hall text hm h
  simp only [List.mem_cons, List.not_mem_nil, or_false, forall_eq_or_imp, forall_eq] at hne
  obtain ⟨hbool, hstr, hint, hfloat⟩ := hne
  simp [Columns.filterOf, hbool, hstr, hint, hfloat]

/-- **The filter on a column is that of its own type,** which is read of the text of the type. -/
theorem filterOf_ofSchema (hint : String) (schema : Json) (required : Bool) :
    Columns.filterOf (ofSchema hint schema) required = ownFilter? schema required := by
  have hcases := ofSchema_cases hint schema
  unfold ownFilter?
  cases hsimple : simpleFilter? schema with
  | none =>
      rw [hsimple] at hcases
      exact filterOf_of_compound hcases required
  | some simple =>
      obtain ⟨type, filter⟩ := simple
      rw [hsimple] at hcases
      dsimp only at hcases ⊢
      have hall : ∀ entry ∈ simpleFilters, ∀ required, Columns.filterOf entry.2.1 required =
          some (entry.2.1, if required then entry.2.2 else "Nullable" ++ entry.2.2) := by decide
      obtain ⟨word, hword⟩ := mem_of_simpleFilter? hsimple
      rw [hcases]
      exact hall _ hword required

end ColumnType

/-! ## Records are read back -/

namespace RecordType

/-- A key and its type on a line of a class. -/
def readField? (line : String) : Option (String × String) :=
  (Text.after? "    " line).bind fun body =>
    (Row.cutAtColon body.toList).bind fun (key, type) =>
      if isColumnName (String.ofList key) then some (String.ofList key, String.ofList type)
      else none

/-- A key and its type on a line of a call. -/
def readKeyed? (line : String) : Option (String × String) :=
  (Text.afterChars? "    \"".toList line.toList).bind fun body =>
    (Quoting.readLiteral? '"' body).bind fun (key, rest) =>
      (Text.afterChars? ": ".toList rest).bind fun behind =>
        (Text.beforeChars? [','] behind).map fun type => (String.ofList key, String.ofList type)

/-- The keys, as they are spelled, and their types in the declaration of a record type. -/
def read? (name text : String) : Option (List (String × String)) :=
  match Text.split '\n' text with
  | [] => none
  | header :: lines =>
    if header = "class " ++ name ++ "(TypedDict):" then lines.mapM readField?
    else if header = name ++ " = TypedDict(" ++ Quoting.literal name ++ ", \x7b" ∧
        lines.getLast? = some "\x7d)" then
      lines.dropLast.mapM readKeyed?
    else none

theorem identifierChars_of_isColumnName {key : String} (h : isColumnName key = true) :
    ∀ c ∈ key.toList, Identifier.isIdentifierChar c = true := by
  unfold isColumnName at h
  split at h
  · cases h
  · rename_i hchars
    rw [hchars]
    exact List.all_eq_true.mp (Bool.and_eq_true_iff.mp h).2

theorem readField?_text {key : String} (h : isColumnName key = true) (type : String) :
    readField? ("    " ++ key ++ ": " ++ type) = some (key, type) := by
  have hcolon : ':' ∉ key.toList := fun hm =>
    absurd (identifierChars_of_isColumnName h ':' hm) (by decide)
  have hbody : (key ++ ": " ++ type).toList = key.toList ++ ':' :: ' ' :: type.toList := by simp
  have hcut : Row.cutAtColon (key.toList ++ ':' :: ' ' :: type.toList) =
      some (key.toList, type.toList) := by
    rw [Row.cutAtColon_append (Row.cutAtColon_of_not_mem hcolon) (by decide)]
    simp [Row.cutAtColon]
  rw [readField?, String.append_assoc, String.append_assoc, Text.after?_eq_some_iff.mpr rfl,
    Option.bind_some, ← String.append_assoc, hbody, hcut, Option.bind_some]
  dsimp only
  rw [String.ofList_toList, String.ofList_toList, if_pos h]

theorem readKeyed?_text (key type : String) :
    readKeyed? ("    " ++ Quoting.literal key ++ ": " ++ type ++ ",") = some (key, type) := by
  have hline : ("    " ++ Quoting.literal key ++ ": " ++ type ++ ",").toList =
      "    \"".toList ++ (key.toList.flatMap (Quoting.escapeChar '"') ++
        '"' :: (": ".toList ++ (type.toList ++ [',']))) := by
    simp [Quoting.literal, Quoting.quoted]
  rw [readKeyed?, hline, Text.afterChars?_eq_some_iff.mpr rfl, Option.bind_some,
    Quoting.readLiteral?_escape (.inr rfl), Option.bind_some]
  dsimp only
  rw [Text.afterChars?_eq_some_iff.mpr rfl, Option.bind_some]
  simp [Text.beforeChars?, Text.afterChars?]

theorem read?_class {record : RecordType} (hname : OneLine record.name)
    (htypes : ∀ field ∈ record.fields, OneLine field.2)
    (hkeys : ∀ field ∈ record.fields, isColumnName field.1 = true) :
    read? record.name record.render = some record.fields := by
  have hheader : OneLine ("class " ++ record.name ++ "(TypedDict):") :=
    hname.between (by decide) (by decide)
  have hlines : ∀ line ∈ ("class " ++ record.name ++ "(TypedDict):") ::
      record.fields.map (fun field => "    " ++ field.1 ++ ": " ++ field.2), OneLine line := by
    intro line hm
    rcases List.mem_cons.mp hm with rfl | hm
    · exact hheader
    · obtain ⟨field, hfield, rfl⟩ := List.mem_map.mp hm
      have hkey : OneLine field.1 := fun hm =>
        absurd (identifierChars_of_isColumnName (hkeys field hfield) _ hm) (by decide)
      exact (hkey.between (by decide) (by decide)).append (htypes field hfield)
  rw [render, if_pos (List.all_eq_true.mpr hkeys), read?,
    Declaration.split_join_of_oneLine (List.cons_ne_nil _ _) hlines]
  dsimp only
  rw [if_pos rfl]
  exact Result.mapM_map_eq_some fun field hm => readField?_text (hkeys field hm) field.2

theorem read?_call {record : RecordType} (hname : OneLine record.name)
    (htypes : ∀ field ∈ record.fields, OneLine field.2)
    (hkeys : (record.fields.all fun field => isColumnName field.1) = false) :
    read? record.name record.render = some record.fields := by
  have hliteral (text : String) : OneLine (Quoting.literal text) :=
    OneLine.of_flat (flat_literal text)
  let header := record.name ++ " = TypedDict(" ++ Quoting.literal record.name ++ ", \x7b"
  let entries := record.fields.map fun field =>
    "    " ++ Quoting.literal field.1 ++ ": " ++ field.2 ++ ","
  have hlines : ∀ line ∈ header :: (entries ++ ["\x7d)"]), OneLine line := by
    intro line hm
    rcases List.mem_cons.mp hm with rfl | hm
    · exact ((hname.append (by decide)).append (hliteral _)).append (by decide)
    rcases List.mem_append.mp hm with hm | hm
    · obtain ⟨field, hfield, rfl⟩ := List.mem_map.mp hm
      have hkey : OneLine ("    " ++ Quoting.literal field.1 ++ ": ") :=
        (hliteral field.1).between (by decide) (by decide)
      exact (hkey.append (htypes field hfield)).append (by decide)
    · exact List.mem_singleton.mp hm ▸ (by decide)
  -- the line that opens a class ends with a colon
  have hclass : header ≠ "class " ++ record.name ++ "(TypedDict):" := by
    have hlast (lead tail : String) : (lead ++ tail).toList.getLast? =
        tail.toList.getLast?.or lead.toList.getLast? := by
      rw [String.toList_append, List.getLast?_append]
    intro heq
    have hends := congrArg (fun text : String => text.toList.getLast?) heq
    simp only [header, hlast] at hends
    simp at hends
  have hrender : record.render = Text.join "\n" (header :: (entries ++ ["\x7d)"])) := by
    rw [render, if_neg (by simp [hkeys])]
    rfl
  rw [hrender, read?, Declaration.split_join_of_oneLine (List.cons_ne_nil _ _) hlines]
  dsimp only
  rw [if_neg hclass, if_pos ⟨rfl, List.getLast?_concat⟩, List.dropLast_concat]
  exact Result.mapM_map_eq_some fun field _ => readKeyed?_text field.1 field.2

/-- **A record type is read back,** key by key and in order. -/
theorem read?_render {record : RecordType} (hname : OneLine record.name)
    (htypes : ∀ field ∈ record.fields, OneLine field.2) :
    read? record.name record.render = some record.fields := by
  cases hkeys : record.fields.all fun field => isColumnName field.1 with
  | true => exact read?_class hname htypes (List.all_eq_true.mp hkeys)
  | false => exact read?_call hname htypes hkeys

end RecordType

/-! ## Columns and their filters -/

namespace Columns

/-- The keys that join filters. -/
def combinatorKeys : List String := ["AND", "OR", "NOT"]

/-- What a filter lists for a column. -/
def filterField? (required : List String) (column : String × Json) : Option (String × String) :=
  (ownFilter? column.2 (required.contains column.1)).map fun (type, filter) =>
    (column.1, "NotRequired[Union[" ++ type ++ ", " ++ filter ++ "]]")

/-- What the declarations of any part of a row and of the filter on it list, key by key: the columns
of the table in order, and the own filter of each that has one before the keys that join filters. No
two of them are for one key unless a column with a filter is called like a key that joins. -/
structure Listed (filterName : String) (properties : Members) (required : List String)
    (parts filters : List (String × String)) : Prop where
  columns : parts.map Prod.fst = properties.map Prod.fst
  distinct : (parts.map Prod.fst).Nodup
  whole : filters = properties.filterMap (filterField? required) ++ combinators filterName
  own : ∀ column ∈ properties, column.1 ∉ combinatorKeys →
    filters.filter (fun field => field.1 = column.1) = (filterField? required column).toList
  clash : (filters.map Prod.fst).Nodup ↔ ∀ column ∈ properties, column.1 ∈ combinatorKeys →
    required.contains column.1 = true ∧ simpleFilter? column.2 = none

variable {columns : Columns} {required : List String}

theorem filters_eq (columns : Columns) :
    columns.filters = columns.properties.filterMap (filterField? columns.required) := by
  unfold filters
  refine List.filterMap_congr fun column _ => ?_
  dsimp only
  rw [typeOf, ColumnType.filterOf_ofSchema]
  rfl

theorem filterField?_eq_none_iff {column : String × Json} :
    filterField? required column = none ↔
      required.contains column.1 = true ∧ simpleFilter? column.2 = none := by
  rw [filterField?, Option.map_eq_none_iff, ownFilter?]
  cases simpleFilter? column.2 with
  | none => cases required.contains column.1 <;> simp
  | some simple => simp

theorem key_of_filterField? {column : String × Json} {field : String × String}
    (h : filterField? required column = some field) : field.1 = column.1 := by
  obtain ⟨_, -, rfl⟩ := Option.map_eq_some_iff.mp h
  rfl

theorem mem_keys_filterFields {key : String} :
    key ∈ (properties.filterMap (filterField? required)).map Prod.fst ↔
      ∃ column ∈ properties, column.1 = key ∧ filterField? required column ≠ none := by
  simp only [List.mem_map, List.mem_filterMap, Option.ne_none_iff_exists']
  constructor
  · rintro ⟨field, ⟨column, hm, hfield⟩, rfl⟩
    exact ⟨column, hm, (key_of_filterField? hfield).symm, field, hfield⟩
  · rintro ⟨column, hm, rfl, field, hfield⟩
    exact ⟨field, ⟨column, hm, hfield⟩, key_of_filterField? hfield⟩

theorem nodup_keys_filterFields (h : (properties.map Prod.fst).Nodup) :
    ((properties.filterMap (filterField? required)).map Prod.fst).Nodup := by
  induction properties with
  | nil => exact List.nodup_nil
  | cons column properties ih =>
      obtain ⟨hfresh, hrest⟩ := List.nodup_cons.mp h
      rw [List.filterMap_cons]
      split
      · exact ih hrest
      · rename_i field hfield
        refine List.nodup_cons.mpr ⟨fun hm => hfresh ?_, ih hrest⟩
        obtain ⟨other, hother, hkey, -⟩ := mem_keys_filterFields.mp hm
        rw [key_of_filterField? hfield] at hkey
        exact hkey ▸ List.mem_map_of_mem hother

/-- The keys of a filter are distinct exactly if no column with a filter is called like a key that
joins. -/
theorem nodup_filter_iff (h : (properties.map Prod.fst).Nodup) (name : String) :
    ((properties.filterMap (filterField? required) ++ combinators name).map Prod.fst).Nodup ↔
      ∀ column ∈ properties, column.1 ∈ combinatorKeys → filterField? required column = none := by
  have hkeys : (combinators name).map Prod.fst = combinatorKeys := rfl
  rw [List.map_append, hkeys, List.nodup_append]
  constructor
  · rintro ⟨-, -, hapart⟩ column hm hjoins
    by_contra hfield
    exact hapart _ (mem_keys_filterFields.mpr ⟨column, hm, rfl, hfield⟩) _ hjoins rfl
  · intro hnone
    refine ⟨nodup_keys_filterFields h, by decide, fun key hkey other hother heq => ?_⟩
    obtain ⟨column, hm, rfl, hfield⟩ := mem_keys_filterFields.mp hkey
    exact hfield (hnone column hm (heq ▸ hother))

/-- For a column among distinct ones there is what the filter lists for it, and nothing else. -/
theorem filter_filterFields (h : (properties.map Prod.fst).Nodup) {column : String × Json}
    (hm : column ∈ properties) :
    (properties.filterMap (filterField? required)).filter (fun field => field.1 = column.1) =
      (filterField? required column).toList := by
  induction properties with
  | nil => cases hm
  | cons first properties ih =>
      obtain ⟨hfresh, hrest⟩ := List.nodup_cons.mp h
      rw [List.filterMap_cons]
      rcases List.mem_cons.mp hm with rfl | hm
      · -- no later column has its key
        have hnone : (properties.filterMap (filterField? required)).filter
            (fun field => field.1 = column.1) = [] := by
          refine List.filter_eq_nil_iff.mpr fun field hfield heq => hfresh ?_
          obtain ⟨other, hother, hkey, -⟩ := mem_keys_filterFields.mp (List.mem_map_of_mem hfield)
          rw [← of_decide_eq_true heq, ← hkey]
          exact List.mem_map_of_mem hother
        cases hfield : filterField? required column with
        | none => exact hnone
        | some field =>
            dsimp only
            rw [List.filter_cons_of_pos (by simpa using key_of_filterField? hfield), hnone]
            rfl
      · have hne : first.1 ≠ column.1 := fun heq => hfresh (heq ▸ List.mem_map_of_mem hm)
        cases hfield : filterField? required first with
        | none => exact ih hrest hm
        | some field =>
            rw [← key_of_filterField? hfield] at hne
            dsimp only
            rw [List.filter_cons_of_neg (by simpa using hne)]
            exact ih hrest hm

theorem listed (columns : Columns) (hdistinct : (columns.properties.map Prod.fst).Nodup)
    (partName filterName : String) :
    Listed filterName columns.properties columns.required (columns.subset partName).fields
      (columns.whereFilter filterName).fields := by
  have hcolumns : (columns.subset partName).fields.map Prod.fst =
      columns.properties.map Prod.fst := by
    rw [subset, List.map_map]
    rfl
  have hfilters : (columns.whereFilter filterName).fields =
      columns.properties.filterMap (filterField? columns.required) ++ combinators filterName := by
    rw [whereFilter, filters_eq]
  refine ⟨hcolumns, hcolumns ▸ hdistinct, hfilters, fun column hm hplain => ?_, ?_⟩
  · have hnone : (combinators filterName).filter (fun field => field.1 = column.1) = [] := by
      refine List.filter_eq_nil_iff.mpr fun field hfield heq => hplain ?_
      rw [← of_decide_eq_true heq]
      exact List.mem_map_of_mem (f := Prod.fst) hfield
    rw [hfilters, List.filter_append, filter_filterFields hdistinct hm, hnone, List.append_nil]
  · rw [hfilters, nodup_filter_iff hdistinct]
    simp only [filterField?_eq_none_iff]

/-! ### The lines of the declarations -/

theorem oneLine_classHint (hrow : OneLine columns.row) (column : String) (schema : Json) :
    OneLine (columns.classHint column schema) := by
  have hnested : OneLine (nestedName columns.row column) := naming_oneLine.nested hrow column
  unfold classHint
  split
  · cases hclass : (columns.declared.lookup column).bind Row.declaredClass? with
    | none => exact hnested
    | some name =>
        obtain ⟨expr, -, hname⟩ := Option.bind_eq_some_iff.mp hclass
        exact fun hm => absurd (identifierChars_of_declaredClass? hname _ hm) (by decide)
  · exact hnested

theorem read?_subset (hrow : OneLine columns.row) (hname : OneLine name) :
    RecordType.read? name (columns.subset name).render = some (columns.subset name).fields := by
  refine RecordType.read?_render hname fun field hm => ?_
  obtain ⟨column, -, rfl⟩ := List.mem_map.mp hm
  have htype : OneLine (columns.typeOf column.1 column.2) :=
    ColumnType.oneLine_ofSchema (oneLine_classHint hrow column.1 column.2) column.2
  dsimp only
  split
  · exact htype.between (by decide) (by decide)
  · exact (htype.between (by decide) (by decide)).between (by decide) (by decide)

theorem oneLine_combinators (hname : OneLine name) :
    ∀ field ∈ combinators name, OneLine field.2 := by
  have hquoted : OneLine ("\"" ++ name ++ "\"") := hname.between (by decide) (by decide)
  have hlist : OneLine ("NotRequired[List[" ++ ("\"" ++ name ++ "\"") ++ "]]") :=
    hquoted.between (by decide) (by decide)
  have heither : OneLine ("NotRequired[Union[" ++ ("\"" ++ name ++ "\"") ++ ", List[" ++
      ("\"" ++ name ++ "\"") ++ "]]]") :=
    ((hquoted.between (by decide) (by decide)).append hquoted).append (by decide)
  intro field hm
  simp only [combinators, List.mem_cons, List.not_mem_nil, or_false] at hm
  rcases hm with rfl | rfl | rfl
  · exact heither
  · exact hlist
  · exact heither

theorem oneLine_filterField? {column : String × Json} {field : String × String}
    (h : filterField? required column = some field) : OneLine field.2 := by
  obtain ⟨⟨type, filter⟩, hown, rfl⟩ := Option.map_eq_some_iff.mp h
  suffices hboth : OneLine type ∧ OneLine filter from
    ((hboth.1.between (by decide) (by decide)).append hboth.2).append (by decide)
  unfold ownFilter? at hown
  split at hown
  · rename_i simple hsimple
    obtain ⟨rfl, rfl⟩ := Prod.mk.inj (Option.some.inj hown)
    have hall : ∀ entry ∈ simpleFilters, OneLine entry.2.1 ∧ OneLine entry.2.2 ∧
        OneLine ("Nullable" ++ entry.2.2) := by decide
    obtain ⟨word, hword⟩ := mem_of_simpleFilter? hsimple
    obtain ⟨htype, hfilter, hnullable⟩ := hall _ hword
    refine ⟨htype, ?_⟩
    split
    · exact hfilter
    · exact hnullable
  · split at hown
    · cases hown
    · obtain ⟨rfl, rfl⟩ := Prod.mk.inj (Option.some.inj hown)
      decide

theorem read?_whereFilter (columns : Columns) (hname : OneLine name) :
    RecordType.read? name (columns.whereFilter name).render =
      some (columns.whereFilter name).fields := by
  refine RecordType.read?_render hname fun field hm => ?_
  rcases List.mem_append.mp hm with hm | hm
  · rw [filters_eq] at hm
    obtain ⟨column, -, hfield⟩ := List.mem_filterMap.mp hm
    exact oneLine_filterField? hfield
  · exact oneLine_combinators hname field hm

end Columns

/-! ## The declarations of a table -/

namespace Renderer

variable {r : Renderer} {spec : Spec} {entry : TableEntry} {stub : Stub}

/-- The columns of a table are distinct if no object in the schema of its rows has a key twice. -/
theorem nodup_of_properties (hdistinct : schema.Distinct)
    (h : (schema.get? "properties").bind Json.obj? = some properties) :
    (properties.map Prod.fst).Nodup := by
  obtain ⟨value, hvalue, hproperties⟩ := Option.bind_eq_some_iff.mp h
  cases value with
  | obj members =>
      obtain rfl := Option.some.inj hproperties
      exact hdistinct members (within_of_get? hvalue)
  | _ => cases hproperties

theorem oneLine_leafOf (name : String) : OneLine (leafOf name) :=
  oneLine_of_identifierChars (identifierChars_leafOf name)

/-- **A filter keeps every column that can be filtered.** The declarations of any part of a row and
of the filter on it stand in the stub of a table, set apart from what is around them, and are read
back. The first has one key for each column, in order. The second has the own filter of every column
but those that are required and of no simple type, then the three that join filters; and one key is
there twice exactly if a column that has a filter is called like one of the three. -/
theorem tables_filter (hentry : spec.tableEntry = .ok entry) (hstub : r.render spec = .ok stub)
    (hdistinct : entry.rowSchema.Distinct) :
    let name := leafOf entry.name
    let required := (((entry.rowSchema.get? "required").bind Json.arr?).getD []).filterMap Json.str?
    ∃ properties front subset filter behind parts filters,
      (entry.rowSchema.get? "properties").bind Json.obj? = some properties ∧
      stub.source =
        front ++ "\n\n\n\n" ++ subset ++ "\n\n\n\n" ++ filter ++ "\n\n\n\n" ++ behind ∧
      RecordType.read? (name ++ "Subset") subset = some parts ∧
      RecordType.read? (name ++ "WhereFilter") filter = some filters ∧
      Columns.Listed (name ++ "WhereFilter") properties required parts filters := by
  intro name required
  obtain ⟨properties, hproperties, front, behind, hsource⟩ := exists_source_columns hentry hstub
  have hget := get?_of_tableProperties hproperties
  have hname : OneLine name := oneLine_leafOf entry.name
  let columns := Columns.ofSchema r.engine entry.rowSchema properties (name ++ "Row")
  have hrow : OneLine columns.row := hname.append (by decide)
  exact ⟨properties, _, _, _, behind, _, _, hget, hsource,
    Columns.read?_subset hrow (hname.append (by decide)),
    Columns.read?_whereFilter columns (hname.append (by decide)),
    Columns.listed columns (nodup_of_properties hdistinct hget) _ _⟩

/-- A contact with a name and an address, and an age if it is known. -/
def aged : Members :=
  [("name", .obj [("type", .str "string")]), ("age", .obj [("type", .str "integer")]),
    ("address", recordSchema "street" "string")]

def agedSchema : Json :=
  .obj [("properties", .obj aged), ("required", .arr [.str "name", .str "address"])]

/-- The address is required and has no filter; that of the age can be asked whether it is known. -/
theorem tables_filter_aged : ∃ stub front subset filter behind parts filters,
    plainRenderer.render { contacts aged with schema := some agedSchema } = .ok stub ∧
    stub.source =
      front ++ "\n\n\n\n" ++ subset ++ "\n\n\n\n" ++ filter ++ "\n\n\n\n" ++ behind ∧
    RecordType.read? "ContactsSubset" subset = some parts ∧
    RecordType.read? "ContactsWhereFilter" filter = some filters ∧
    parts.map Prod.fst = ["name", "age", "address"] ∧
    filters.map Prod.fst = ["name", "age", "AND", "OR", "NOT"] ∧ (filters.map Prod.fst).Nodup ∧
    filters.filter (fun field => field.1 = "age") =
      [("age", "NotRequired[Union[int, NullableNumberFilter]]")] := by
  have hrender : (plainRenderer.render
      { contacts aged with schema := some agedSchema }).toOption.isSome = true := by
    decide +kernel
  obtain ⟨stub, hstub⟩ := Option.isSome_iff_exists.mp hrender
  have hstub := Result.eq_ok_of_toOption hstub
  have hleaf : leafOf "Contacts" = "Contacts" := by decide +kernel
  have hentry : Spec.tableEntry { contacts aged with schema := some agedSchema } =
      .ok ⟨"1", "", "Contacts", "", agedSchema⟩ := rfl
  have hdistinct : agedSchema.Distinct := by
    simp [agedSchema, aged, recordSchema, Members.keys]
  obtain ⟨properties, front, subset, filter, behind, parts, filters, hget, hsource, hparts,
    hfilters, hlisted⟩ := tables_filter hentry hstub hdistinct
  obtain rfl : aged = properties := Option.some.inj hget
  dsimp only at hparts hfilters hlisted
  rw [hleaf] at hparts hfilters hlisted
  refine ⟨stub, front, subset, filter, behind, parts, filters, hstub, hsource, hparts, hfilters,
    hlisted.columns, ?_, ?_, ?_⟩
  · rw [hlisted.whole]
    rfl
  · exact hlisted.clash.mpr (by decide)
  · exact (hlisted.own _ (.tail _ (.head _)) (by decide)).trans (by decide)

/-- A column that is called like a key that joins filters has its key twice in the filter. -/
theorem filter_clash : ∃ stub front filter behind filters,
    plainRenderer.render (contacts [("AND", .obj [("type", .str "string")])]) = .ok stub ∧
    stub.source = front ++ filter ++ "\n\n\n\n" ++ behind ∧
    RecordType.read? "ContactsWhereFilter" filter = some filters ∧
    filters.map Prod.fst = ["AND", "AND", "OR", "NOT"] ∧ ¬ (filters.map Prod.fst).Nodup := by
  let columns : Members := [("AND", .obj [("type", .str "string")])]
  have hrender : (plainRenderer.render (contacts columns)).toOption.isSome = true := by
    decide +kernel
  obtain ⟨stub, hstub⟩ := Option.isSome_iff_exists.mp hrender
  have hstub := Result.eq_ok_of_toOption hstub
  have hleaf : leafOf "Contacts" = "Contacts" := by decide +kernel
  have hentry : (contacts columns).tableEntry = .ok ⟨"1", "", "Contacts", "",
    .obj [("type", .str "object"), ("properties", .obj columns)]⟩ := rfl
  obtain ⟨properties, hproperties, front, behind, hsource⟩ := exists_source_columns hentry hstub
  obtain rfl : columns = properties := Option.some.inj (get?_of_tableProperties hproperties)
  dsimp only at hsource
  rw [hleaf] at hsource
  let table := Columns.ofSchema plainRenderer.engine
    (.obj [("type", .str "object"), ("properties", .obj columns)]) columns ("Contacts" ++ "Row")
  have hkeys : (table.whereFilter "ContactsWhereFilter").fields.map Prod.fst =
      ["AND", "AND", "OR", "NOT"] := by
    rw [Columns.whereFilter, Columns.filters_eq]
    rfl
  exact ⟨stub, _, _, behind, _, hstub, hsource, Columns.read?_whereFilter table (by decide), hkeys,
    hkeys ▸ by decide⟩

end Renderer

end StubGen
