import StubGen.Proofs.Stub.Annotations
import StubGen.Proofs.Stub.Columns
import StubGen.Proofs.Stub.Fields

/-!
# Tables

The shapes of the queries of a table name classes for the objects in its columns, and the row
declares them. The table reads the schema of a column itself and looks the class of an object up in
the text of the row. Where a row is transparent, each class that a query names is one that the row
declares, and for an object it is the one that the row has there: `tables_resolve`. So it is also
for columns whose classes want the same name, of which one gets a number. A row that the engine
cannot type is degraded to a mapping, and its queries name classes that nobody declares:
`degraded_undeclared`.
-/

namespace StubGen

open Schema
open DefinitionSet (Announces Begins)
open Schema.Declaration (linesOf)
open Row (Legible Unread)
open Columns (isDirectObject)

variable {members properties : Members} {blocks : List Declaration} {row column name : String}
  {schema : Json}

/-- The names that stand in quotes in the types of a record's fields. -/
def RecordType.quoted (record : RecordType) : List String :=
  record.fields.flatMap fun field => quotedNames field.2

/-! ## Transparent rows -/

/-- A row whose columns are read back as they are declared: the engine and the table make the same
of the schema of each, it is written under a key that can be read, and no documentation looks like
the field of a column. -/
structure Transparent (row : String) (members properties : Members) : Prop where
  plain : ∀ key ∈ ["$ref", "allOf"], members.get? key = none
  record : objectProperties? members = some properties
  distinct : (properties.map Prod.fst).Nodup
  agreed : ∀ column ∈ properties, Agreed column.2
  legible : ∀ column ∈ properties, Legible column.1
  worded : ∀ column ∈ properties,
    ∀ c ∈ (nestedName row column.1).toList, Identifier.isIdentifierChar c = true
  unread : ∀ schema ∈ .obj members :: properties.map Prod.snd, ∀ text ∈ description? schema,
    Unread (properties.map Prod.fst) text

/-- The names and the documentation of the fields that a list of properties is declared as. -/
theorem Schema.names_fieldOf {required : List String} {typed : String × Json → TypeExpr → Prop}
    {properties : Members} {fields : List Field}
    (h : List.Forall₂ (fun property field => ∃ type, typed property type ∧
      field = fieldOf required property.1 property.2 type) properties fields) :
    fields.map Field.name = properties.map Prod.fst := by
  induction h with
  | nil => rfl
  | cons h _ ih =>
      obtain ⟨type, -, rfl⟩ := h
      rw [List.map_cons, List.map_cons, ih]
      rfl

theorem Schema.doc_fieldOf {required : List String} {type : TypeExpr} {text : String}
    (h : text ∈ (fieldOf required column schema type).doc) :
    text = "Required property" ∨ description? schema = some text := by
  unfold fieldOf at h
  dsimp only at h
  cases hdoc : description? schema with
  | some given =>
      rw [hdoc] at h
      exact .inr h
  | none =>
      rw [hdoc] at h
      simp only [Option.orElse, Option.mem_def] at h
      split at h
      · exact .inl (Option.some.inj h).symm
      · cases h

/-- **A transparent row is declared as a record,** behind the classes for its columns: it has a
field for each column, of the type that the engine made of its schema. -/
theorem exists_record (h : Transparent row members properties)
    (hblocks : Schema.declarations ⟨normalizeEnums (.obj members), row, defaultMaxDepth⟩ =
      .ok blocks) :
    ∃ others fields, blocks = others ++ [.record row (description? (.obj members)) fields] ∧
      fields.map Field.name = properties.map Prod.fst ∧
      (∀ field ∈ fields, ∀ text ∈ field.doc, text = "Required property" ∨
        ∃ column ∈ properties, description? column.2 = some text) ∧
      ∀ column ∈ properties, ∃ field ∈ fields, field.name = column.1 ∧
        (column.2.obj? = none ∨ TypedField ⟨normalizeEnums (.obj members), row, defaultMaxDepth⟩
          (blocks.map Declaration.name) row (column.1, normalizeEnums column.2) field.type) := by
  -- nothing is merged into a transparent row, so the root is the record itself
  have hpointer : (normalizeEnums (.obj members)).getStr? "$ref" = none := by
    rw [getStr?_normalizeEnums (by decide), Json.getStr?, Json.get?, h.plain "$ref" (by simp)]
    rfl
  have hmerge : arrayUnder? (normalizeMembers members) "allOf" = none := by
    rw [arrayUnder?, get?_normalizeMembers_eq_none (h.plain "allOf" (by simp))]
    rfl
  have hproperties : objectProperties? (normalizeMembers members) =
      some (normalizeMembers properties) := by
    rw [objectProperties?_normalizeMembers, h.record, Option.map_some]
  obtain ⟨others, fields, rfl, hfields⟩ := record_of_declarations (by rw [normalizeEnums])
    hpointer hmerge hproperties hblocks
  obtain ⟨hforth, hback⟩ := exists_of_forall₂ hfields
  obtain ⟨hnormal, horigin⟩ := exists_of_forall₂ (forall₂_normalizeMembers properties)
  dsimp only at hforth hback
  rw [description?_normalizeEnums] at hforth ⊢
  refine ⟨others, fields, rfl, ?_, ?_, ?_⟩
  · rw [names_fieldOf hfields, keys_normalizeMembers]
  · intro field hm text htext
    obtain ⟨normal, hmem, type, -, rfl⟩ := hback field hm
    refine (doc_fieldOf htext).imp_right fun hdoc => ?_
    obtain ⟨column, hcolumn, -, heq | ⟨-, hnone⟩⟩ := horigin normal hmem
    · rw [heq, description?_normalizeEnums] at hdoc
      exact ⟨column, hcolumn, hdoc⟩
    · rw [description?_of_obj? hnone] at hdoc
      cases hdoc
  · intro column hm
    obtain ⟨⟨key, normal⟩, hmem, rfl, hvalue⟩ := hnormal column hm
    obtain ⟨field, hfield, type, htyped, rfl⟩ := hforth _ hmem
    refine ⟨_, hfield, rfl, hvalue.symm.imp (fun h => h.1) fun heq => ?_⟩
    dsimp only at heq
    rw [heq] at htyped
    exact htyped

/-! ## The names of rows -/

namespace Renderer

theorem identifierChars_rowName (name : String) :
    ∀ c ∈ (leafOf name ++ "Row").toList, Identifier.isIdentifierChar c = true := by
  intro c hm
  rw [String.toList_append, List.mem_append] at hm
  rcases hm with hm | hm
  · exact List.all_eq_true.mp (identifierChars_leafOf name) c hm
  · exact List.all_eq_true.mp (by decide) c hm

/-- No word that is taken ends like the name of a row. -/
theorem rowName_ne {word : String} (h : word.toList.getLast? ≠ some 'w') (name : String) :
    leafOf name ++ "Row" ≠ word := by
  rintro rfl
  exact h (by simp)

theorem tidy_rowName (name : String) : Tidy (leafOf name ++ "Row") where
  ne_empty := rowName_ne (by simp) name
  chars c hm := by simp [isNamePart, identifierChars_rowName name c hm]
  notImport hm := by
    have hnone : ∀ word ∈ importWords, word.toList.getLast? ≠ some 'w' := by decide
    exact rowName_ne (hnone _ hm) name rfl

/-- A row is declared under its own name. -/
theorem rootName_rowName (schema : Json) (name fallback : String) :
    rootName schema (leafOf name ++ "Row") fallback = leafOf name ++ "Row" := by
  have hfree : Identifier.isReserved (leafOf name ++ "Row") = false := by
    have hnone : ∀ word ∈ Identifier.keywords ++ Identifier.preambleNames,
        word.toList.getLast? ≠ some 'w' := by decide
    refine Bool.eq_false_iff.mpr fun hreserved => ?_
    have hm : leafOf name ++ "Row" ∈ Identifier.keywords ++ Identifier.preambleNames := by
      simpa [Identifier.isReserved, Identifier.isKeyword] using hreserved
    exact rowName_ne (hnone _ hm) name rfl
  exact rootName_eq_self (rowName_ne (by simp) name) (identifierChars_rowName name) hfree schema
    fallback

end Renderer

/-! ## Columns -/

theorem identifierChars_freshName {hint : String}
    (h : ∀ c ∈ hint.toList, Identifier.isIdentifierChar c = true) (taken : List String) :
    ∀ c ∈ (freshName taken hint).toList, Identifier.isIdentifierChar c = true := by
  rcases freshName_cases taken hint with heq | ⟨n, heq⟩
  · rwa [heq]
  · rw [heq, String.toList_append]
    intro c hm
    rcases List.mem_append.mp hm with hm | hm
    · exact h c hm
    · exact Identifier.isIdentifierChar_of_isAlphanum
        (List.all_eq_true.mp (Suffix.number n).alphanum c hm)

theorem freshName_ne_empty {hint : String} (h : hint ≠ "") (taken : List String) :
    freshName taken hint ≠ "" := by
  rcases freshName_cases taken hint with heq | ⟨n, heq⟩ <;> simp [heq, h]

theorem identifierChars_of_declaredClass? {expr : String}
    (h : Row.declaredClass? expr = some name) :
    ∀ c ∈ name.toList, Identifier.isIdentifierChar c = true := by
  unfold Row.declaredClass? at h
  split at h
  · split at h
    · rename_i hchars
      obtain rfl := Option.some.inj h
      rw [String.toList_ofList]
      exact List.all_eq_true.mp hchars
    · cases h
  · cases h

theorem quote_not_mem_of_identifierChars
    (h : ∀ c ∈ name.toList, Identifier.isIdentifierChar c = true) : '"' ∉ name.toList :=
  fun hm => absurd (h _ hm) (by decide)

namespace Columns

variable {columns : Columns}

theorem declared_ofSchema (engine : Engine) (schema : Json) (properties : Members)
    (row : String) : (ofSchema engine schema properties row).declared =
      Row.fields (Row.declarations engine schema row) row := by
  rw [ofSchema]

/-- The class for a column is one word if the name for its place is. -/
theorem identifierChars_classHint
    (h : ∀ c ∈ (nestedName columns.row column).toList, Identifier.isIdentifierChar c = true)
    (schema : Json) :
    ∀ c ∈ (columns.classHint column schema).toList, Identifier.isIdentifierChar c = true := by
  unfold classHint
  split
  · cases hclass : (columns.declared.lookup column).bind Row.declaredClass? with
    | none => exact h
    | some name =>
        obtain ⟨expr, -, hname⟩ := Option.bind_eq_some_iff.mp hclass
        exact identifierChars_of_declaredClass? hname
  · exact h

/-- What the table makes of a column, where the row has a field of a type for it: it quotes classes
that are declared, for an object the one that the field refers to first, and both are just a class
if the schema is for nothing but an object. -/
structure Resolves (columns : Columns) (declared : List String) (column : String × Json)
    (type : TypeExpr) : Prop where
  paired : Paired (columns.typeOf column.1 column.2)
  declared : quotedNames (columns.typeOf column.1 column.2) ⊆ declared
  direct : isDirectObject column.2 = true →
    ∀ quoted ∈ quotedNames (columns.typeOf column.1 column.2), type.references.head? = some quoted
  object : isDirectObject column.2 = true → ∀ members, column.2 = .obj members →
    ForObject members → ∃ quoted, columns.typeOf column.1 column.2 = "\"" ++ quoted ++ "\"" ∧
      type = .ref quoted

/-- An object goes by the name of its class. -/
theorem typeOf_of_forObject (hdirect : isDirectObject (.obj members) = true)
    (h : ForObject members) : columns.typeOf column (.obj members) =
      "\"" ++ columns.classHint column (.obj members) ++ "\"" := by
  obtain ⟨hpattern, hproperties, -⟩ := isDirectObject_eq_true hdirect
  rw [typeOf, ofSchema_of_forObject h,
    ColumnType.objectType_of_unpatterned _ _ (unpatterned_of_get? hpattern), hproperties,
    if_pos rfl]

theorem resolves_of_none {declared : List String} {column : String × Json} {type : TypeExpr}
    (hpaired : Paired (columns.typeOf column.1 column.2))
    (hhint : '"' ∉ (columns.classHint column.1 column.2).toList)
    (h : quotedNames (columns.typeOf column.1 column.2) = []) :
    Resolves columns declared column type where
  paired := hpaired
  declared := h ▸ List.nil_subset _
  direct _ := fun _ hm => absurd (h ▸ hm) List.not_mem_nil
  object hdirect members hschema hobject := by
    rw [hschema] at h hhint hdirect
    rw [typeOf_of_forObject hdirect hobject, quotedNames_quoted hhint] at h
    exact absurd h (List.cons_ne_nil _ _)

/-- What is no object has no class. -/
theorem resolves_of_obj? {declared : List String} {column : String × Json} {type : TypeExpr}
    (h : column.2.obj? = none) : Resolves columns declared column type := by
  have hplain : '"' ∉ (columns.typeOf column.1 column.2).toList := by
    unfold typeOf
    cases hschema : column.2 with
    | obj members =>
        rw [hschema] at h
        cases h
    | _ =>
        rw [ColumnType.ofSchema]
        · decide
        · exact fun _ h => by cases h
  have hnone := quotedNames_of_not_mem hplain
  refine ⟨paired_of_not_mem hplain, hnone ▸ List.nil_subset _, fun _ _ hm => ?_,
    fun _ members hschema => ?_⟩
  · exact absurd (hnone ▸ hm) List.not_mem_nil
  · rw [hschema] at h
    cases h

/-- The class of an object is read of the field that the row has for it. -/
theorem resolves_of_direct {declared : List String} {column : String × Json} {type : TypeExpr}
    (hagreed : Agreed column.2)
    (hworded : ∀ c ∈ (nestedName columns.row column.1).toList,
      Identifier.isIdentifierChar c = true)
    (hdirect : isDirectObject column.2 = true)
    (h : Direct column.2 (nestedName columns.row column.1) type)
    (href : ∀ members, column.2 = .obj members → ForObject members → ∃ name, type = .ref name)
    (hclosed : type.references ⊆ declared)
    (hread : columns.declared.lookup column.1 = some type.render) :
    Resolves columns declared column type := by
  have hhint := quote_not_mem_of_identifierChars (identifierChars_classHint hworded column.2)
  have hpaired : Paired (columns.typeOf column.1 column.2) := (hagreed.assured hhint).paired
  -- a type without references has nothing in quotes to resolve
  cases hreferences : type.references with
  | nil => exact resolves_of_none hpaired hhint (h.some hhint hreferences)
  | cons name names =>
      have hchars : ∀ other ∈ type.references,
          ∀ c ∈ other.toList, Identifier.isIdentifierChar c = true := by
        intro other hm
        obtain ⟨taken, rfl⟩ := h.named other hm
        exact identifierChars_freshName hworded taken
      have hquotes := h.simple.quotes fun other hm =>
        quote_not_mem_of_identifierChars (hchars other hm)
      have hm : name ∈ type.references := hreferences ▸ List.mem_cons_self
      have hne : name ≠ "" := by
        obtain ⟨taken, rfl⟩ := h.named name hm
        exact freshName_ne_empty (by simp [nestedName]) taken
      -- the reader takes the class from the first name in quotes of the field
      have hclass : Row.declaredClass? type.render = some name :=
        Row.declaredClass?_of_quotedNames hquotes.1 (hquotes.2.trans hreferences) hne
          (hchars name hm)
      have hplace : columns.classHint column.1 column.2 = name := by
        simp [classHint, hdirect, hread, hclass]
      have honly : quotedNames (columns.typeOf column.1 column.2) ⊆ [name] := by
        rw [typeOf, hplace]
        exact h.only (quote_not_mem_of_identifierChars (hchars name hm))
      refine ⟨hpaired, fun quoted hquoted => ?_, fun _ quoted hquoted => ?_,
        fun _ members hschema hobject => ⟨name, ?_, ?_⟩⟩
      · rw [List.mem_singleton.mp (honly hquoted)]
        exact hclosed hm
      · rw [List.mem_singleton.mp (honly hquoted), hreferences, List.head?_cons]
      · rw [hschema] at hdirect hplace ⊢
        rw [typeOf_of_forObject hdirect hobject, hplace]
      · obtain ⟨other, rfl⟩ := href members hschema hobject
        rw [TypeExpr.references, List.cons.injEq] at hreferences
        rw [hreferences.1]

/-- **A column is typed by classes that are declared with its row,** and if it is an object by the
class that the row refers to. -/
theorem resolves_of_typed {document : Document} {declared : List String} {column : String × Json}
    {type : TypeExpr} (hagreed : Agreed column.2)
    (hworded : ∀ c ∈ (nestedName columns.row column.1).toList,
      Identifier.isIdentifierChar c = true)
    (htyped : TypedField document declared columns.row (column.1, normalizeEnums column.2) type)
    (hclosed : type.references ⊆ declared)
    (hread : columns.declared.lookup column.1 = some type.render) :
    Resolves columns declared column type := by
  have hhint := quote_not_mem_of_identifierChars (identifierChars_classHint hworded column.2)
  have hpaired : Paired (columns.typeOf column.1 column.2) := (hagreed.assured hhint).paired
  have hnested := quote_not_mem_of_identifierChars hworded
  obtain ⟨room, depth, before, after, hrun, hsub⟩ := htyped
  dsimp only at hrun
  -- only an object is typed by what the row was read to say
  cases hdirect : isDirectObject column.2 with
  | false =>
      have hplace : columns.classHint column.1 column.2 = nestedName columns.row column.1 := by
        simp [classHint, hdirect]
      have htakes := (hagreed.assured hnested).takes document room depth
      refine ⟨hpaired, ?_, fun h => absurd (hdirect.symm.trans h) (by simp),
        fun h => absurd (hdirect.symm.trans h) (by simp)⟩
      rw [typeOf, hplace]
      exact List.Subset.trans (htakes.run hrun).2 hsub
  | true =>
      rcases hagreed.direct hdirect hnested hrun with hnone | hd
      · exact resolves_of_none hpaired hhint (hnone _)
      · refine resolves_of_direct hagreed hworded hdirect hd (fun members hschema hobject => ?_)
          hclosed hread
        rw [hschema] at hagreed hdirect hrun
        obtain ⟨taken, hname⟩ := hagreed.ref hdirect hobject hrun
        exact ⟨_, hname⟩

/-! ### The shapes of queries -/

/-- Any part of a row quotes what its columns do. -/
theorem quoted_subset (columns : Columns) (name : String)
    (h : ∀ column ∈ columns.properties, Paired (columns.typeOf column.1 column.2)) :
    (columns.subset name).quoted = columns.properties.flatMap fun column =>
      quotedNames (columns.typeOf column.1 column.2) := by
  unfold RecordType.quoted subset
  rw [List.flatMap_map]
  refine List.flatMap_congr fun column hm => ?_
  have hpaired := h column hm
  dsimp only
  split
  · exact quotedNames_between hpaired (by decide) (by decide)
  · rw [quotedNames_between (hpaired.between (by decide) (by decide)) (by decide) (by decide),
      quotedNames_between hpaired (by decide) (by decide)]

/-- A filter on a column is for a simple type or for what is missing. -/
theorem quote_not_mem_filterOf {type expr filter : String} {required : Bool}
    (h : filterOf type required = some (expr, filter)) :
    '"' ∉ ("NotRequired[Union[" ++ expr ++ ", " ++ filter ++ "]]").toList := by
  unfold filterOf at h
  split at h
  · obtain ⟨rfl, rfl⟩ := Prod.mk.inj (Option.some.inj h)
    subst type
    cases required <;> decide
  split at h
  · obtain ⟨rfl, rfl⟩ := Prod.mk.inj (Option.some.inj h)
    subst type
    cases required <;> decide
  split at h
  · rename_i hnumber
    obtain ⟨rfl, rfl⟩ := Prod.mk.inj (Option.some.inj h)
    simp only [Bool.or_eq_true, decide_eq_true_eq] at hnumber
    rcases hnumber with rfl | rfl <;> cases required <;> decide
  split at h
  · cases h
  · obtain ⟨rfl, rfl⟩ := Prod.mk.inj (Option.some.inj h)
    decide

/-- A filter quotes itself only. -/
theorem quoted_whereFilter (columns : Columns) (hname : '"' ∉ name.toList) :
    ∀ quoted ∈ (columns.whereFilter name).quoted, quoted = name := by
  intro quoted hm
  obtain ⟨field, hfield, hm⟩ := List.mem_flatMap.mp hm
  rcases List.mem_append.mp hfield with hfield | hfield
  · obtain ⟨⟨column, schema⟩, -, hfilter⟩ := List.mem_filterMap.mp hfield
    obtain ⟨⟨expr, filter⟩, hpair, rfl⟩ := Option.map_eq_some_iff.mp hfilter
    rw [quotedNames_of_not_mem (quote_not_mem_filterOf hpair)] at hm
    exact absurd hm List.not_mem_nil
  · have hpaired := paired_quoted hname
    have hself := quotedNames_quoted hname
    let q := "\"" ++ name ++ "\""
    -- the filters of columns quote nothing, those that join filters quote the filter
    have hlist : quotedNames ("NotRequired[List[" ++ q ++ "]]") = [name] :=
      (quotedNames_between hpaired (by decide) (by decide)).trans hself
    have heither : quotedNames ("NotRequired[Union[" ++ q ++ ", List[" ++ q ++ "]]]") =
        [name, name] := by
      have hfirst : Paired ("NotRequired[Union[" ++ q ++ ", List[") :=
        hpaired.between (by decide) (by decide)
      rw [quotedNames_append (hfirst.append hpaired), quotedNames_append hfirst,
        quotedNames_between hpaired (by decide) (by decide), hself,
        quotedNames_of_not_mem (show '"' ∉ "]]]".toList by decide)]
      rfl
    simp only [combinators, List.mem_cons, List.not_mem_nil, or_false] at hfield
    rcases hfield with rfl | rfl | rfl
    · exact List.mem_singleton.mp (by simpa using (heither ▸ hm : quoted ∈ [name, name]))
    · exact List.mem_singleton.mp (hlist ▸ hm)
    · exact List.mem_singleton.mp (by simpa using (heither ▸ hm : quoted ∈ [name, name]))

end Columns

/-! ## Rows that are declared -/

/-- A row as the engine declares it: its text is that of the classes for its columns and of the
record with a field for each column, and the columns are typed by these classes. -/
structure DeclaredRow (columns : Columns) (text : String) (fields : List Field) : Prop where
  written : ∃ others doc, text =
    Text.join "\n" (linesOf (others ++ [Declaration.record columns.row doc fields]))
  names : fields.map Field.name = columns.properties.map Prod.fst
  resolves : ∀ column ∈ columns.properties, ∃ field ∈ fields, field.name = column.1 ∧
    ∃ declared, (∀ name ∈ declared, Announces text name) ∧
      columns.Resolves declared column field.type

/-- **A transparent row that the engine can type is declared with the classes for its columns.** -/
theorem exists_declaredRow {source : String} (h : Transparent row members properties)
    (hrow : Tidy row) (hroot : rootName (.obj members) row "Dict" = row)
    (hok : builtinEngine (normalizeEnums (.obj members)) row = .ok source) :
    ∃ fields, DeclaredRow (Columns.ofSchema builtinEngine (.obj members) properties row)
      (Row.declarations builtinEngine (.obj members) row) fields := by
  obtain ⟨blocks, hblocks⟩ : ∃ blocks,
      Schema.declarations ⟨normalizeEnums (.obj members), row, defaultMaxDepth⟩ = .ok blocks := by
    obtain ⟨blocks, hblocks, -⟩ := Result.map_eq_ok_iff.mp hok
    exact ⟨blocks, hblocks⟩
  have htext := Row.split_declarations hroot hrow hok hblocks
  have hproper := proper_declarations naming_tidy hrow hblocks
  have hclosed := closed_declarations hblocks
  obtain ⟨others, fields, rfl, hnames, hdocs, hfields⟩ := exists_record h hblocks
  have hlegible : ∀ field ∈ fields, Legible field.name := by
    intro field hm
    have hname : field.name ∈ properties.map Prod.fst := hnames ▸ List.mem_map_of_mem hm
    obtain ⟨column, hcolumn, hkey⟩ := List.mem_map.mp hname
    exact hkey ▸ h.legible column hcolumn
  -- no documentation of the row or of a column is read as a field
  have hunread : ∀ text ∈ (Declaration.record row (description? (.obj members)) fields).docs,
      Unread (fields.map Field.name) text := by
    intro text hm
    rw [hnames]
    rcases List.mem_append.mp hm with hm | hm
    · exact h.unread _ List.mem_cons_self text (Option.mem_toList.mp hm)
    · obtain ⟨field, hfield, hm⟩ := List.mem_flatMap.mp hm
      rcases hdocs field hfield text (Option.mem_toList.mp hm) with rfl | ⟨column, hcolumn, hdoc⟩
      · exact Row.unread_of_oneLine _ (by decide)
      · exact h.unread _ (List.mem_cons_of_mem _ (List.mem_map_of_mem hcolumn)) text hdoc
  refine ⟨fields, ⟨others, _, htext⟩, hnames, fun column hm => ?_⟩
  obtain ⟨field, hfield, hname, hkind⟩ := hfields column hm
  have hread := Row.lookup_fields rfl hproper hclosed.distinct hlegible
    (hnames ▸ h.distinct) hunread hfield
  let declared := (others ++ [Declaration.record row (description? (.obj members)) fields]).map
    Declaration.name
  -- what the engine declares is announced by the lines of the row
  have hannounced : ∀ name ∈ declared,
      Announces (Row.declarations builtinEngine (.obj members) row) name := by
    intro name hm
    obtain ⟨d, hd, rfl⟩ := List.mem_map.mp hm
    rw [htext]
    exact Declaration.announces_linesOf hproper hd
  refine ⟨field, hfield, hname, declared, hannounced, ?_⟩
  rcases hkind with hnone | htyped
  · exact Columns.resolves_of_obj? hnone
  · refine Columns.resolves_of_typed (h.agreed column hm) (h.worded column hm) htyped ?_ ?_
    · refine List.Subset.trans (fun name hm => ?_) (hclosed.references
        (.record row (description? (.obj members)) fields) (by simp))
      exact List.mem_flatMap.mpr ⟨field, hfield, hm⟩
    · rw [← hname, Columns.declared_ofSchema, htext]
      exact hread

/-! ## Rows that are degraded -/

namespace Row

theorem declarations_of_error {engine : Engine} {e : SchemaError}
    (h : engine (normalizeEnums schema) (rootName schema row "Dict") = .error e) :
    Row.declarations engine schema row = row ++ " = Dict[str, Any]" := by
  unfold Row.declarations Schema.render
  dsimp only
  rw [h]
  rfl

/-- A degraded row declares nothing but itself. -/
theorem announces_degraded (hrow : Tidy row) (hname : Tidy name) :
    Announces (row ++ " = Dict[str, Any]") name ↔ name = row := by
  have hone : OneLine (row ++ " = Dict[str, Any]") := (Tidy.oneLine row hrow).append (by decide)
  have hbegins : Begins row (row ++ " = Dict[str, Any]").toList :=
    ⟨row ++ " = ", by simp, "Dict[str, Any]".toList, by simp⟩
  unfold Announces
  rw [Text.splitChars_of_not_mem hone]
  constructor
  · rintro ⟨line, hm, hline⟩
    rw [List.mem_singleton.mp hm] at hline
    exact begins_unique hname hrow hline hbegins
  · rintro rfl
    exact ⟨_, List.mem_singleton_self _, hbegins⟩

/-- A degraded row has no fields. -/
theorem fields_degraded (hrow : Tidy row) : Row.fields (row ++ " = Dict[str, Any]") row = [] := by
  have hone : OneLine (row ++ " = Dict[str, Any]") := (Tidy.oneLine row hrow).append (by decide)
  have hlines : Text.lines (row ++ " = Dict[str, Any]") = [row ++ " = Dict[str, Any]"] := by
    have hne : (row ++ " = Dict[str, Any]").toList ≠ [] := by simp
    rw [Text.lines, Text.linesChars, Text.splitChars_of_not_mem hone]
    simp
  have hclass : Text.startsWith ("class " ++ row ++ "(") (row ++ " = Dict[str, Any]") = false := by
    refine Bool.eq_false_iff.mpr fun h => ?_
    obtain ⟨rest, hrest⟩ := startsWith_iff.mp h
    refine class_ne_assignment hrow hrow rest " Dict[str, Any]".toList ?_
    simpa using hrest
  have hcall : Text.startsWith (row ++ " = TypedDict(") (row ++ " = Dict[str, Any]") = false := by
    refine Bool.eq_false_iff.mpr fun h => ?_
    obtain ⟨rest, hrest⟩ := startsWith_iff.mp h
    simp at hrest
  unfold Row.fields
  dsimp only
  rw [hlines]
  simp [hclass, hcall]

end Row

/-- The class for a column has another name than a row that is not all underscores. -/
theorem nestedName_ne (h : ∃ c ∈ row.toList, c ≠ '_') (column : String) :
    nestedName row column ≠ row := by
  obtain ⟨c, cs, hdrop, hc⟩ : ∃ c cs, row.toList.dropWhile (· = '_') = c :: cs ∧ c ≠ '_' := by
    obtain ⟨d, hm, hd⟩ := h
    have hne : row.toList.dropWhile (· = '_') ≠ [] := fun hnil =>
      hd (by simpa using List.dropWhile_eq_nil_iff.mp hnil d hm)
    obtain ⟨c, cs, hdrop⟩ := List.exists_cons_of_ne_nil hne
    have hhead := List.head_dropWhile_not (· = '_') hne
    simp only [hdrop, List.head_cons, decide_eq_false_iff_not] at hhead
    exact ⟨c, cs, hdrop, hhead⟩
  obtain ⟨x, xs, hmore⟩ : ∃ x xs,
      (Identifier.upperFirst (Identifier.sanitize column)).toList = x :: xs :=
    List.exists_cons_of_ne_nil fun hnil => Identifier.upperFirst_ne_empty
      (sanitize_ne_empty column) (String.toList_eq_nil_iff.mp hnil)
  intro heq
  have hchars : '_' :: c :: (cs ++ x :: xs) = row.toList := by
    rw [← heq, nestedName]
    simp [hdrop, hmore]
  rw [← hchars] at hdrop
  simp [hc] at hdrop

/-! ## Stubs of tables -/

namespace Renderer

variable {r : Renderer} {spec : Spec} {entry : TableEntry} {stub : Stub}

/-- The pieces with which the template of a table begins, up to the gap behind its filter. -/
theorem tableClass_pieces : Template.tableClass.take 24 =
    [.text "\n", .text "\n", .gap "name", .text "Columns = Literal[", .gap "columns", .text "]\n",
      .text "\n", .text "\n", .text "\n", .gap "row_classes", .text "\n",
      .text "\n", .text "\n", .text "\n", .gap "subset_class", .text "\n",
      .text "\n", .text "\n", .text "\n", .gap "where_class", .text "\n",
      .text "\n", .text "\n", .text "\n"] := by
  decide +kernel

theorem fill_tableClass {values : List (String × String)} {name columns rows subset filter : String}
    (hname : values.lookup "name" = some name) (hcolumns : values.lookup "columns" = some columns)
    (hrows : values.lookup "row_classes" = some rows)
    (hsubset : values.lookup "subset_class" = some subset)
    (hfilter : values.lookup "where_class" = some filter) :
    Template.tableClass.fill values = "\n\n" ++ name ++ "Columns = Literal[" ++ columns ++
      "]\n\n\n\n" ++ rows ++ "\n\n\n\n" ++ subset ++ "\n\n\n\n" ++ filter ++ "\n\n\n\n" ++
      Template.fill values (Template.tableClass.drop 24) := by
  have hlead : Template.fill values (Template.tableClass.take 24) = "\n\n" ++ name ++
      "Columns = Literal[" ++ columns ++ "]\n\n\n\n" ++ rows ++ "\n\n\n\n" ++ subset ++
      "\n\n\n\n" ++ filter ++ "\n\n\n\n" := by
    rw [tableClass_pieces, ← String.toList_inj]
    simp [Template.fill, hname, hcolumns, hrows, hsubset, hfilter]
  rw [Template.fill_cut values _ 24, hlead]

/-- The columns of a table are the properties in the schema of its rows. -/
theorem get?_of_tableProperties (h : tableProperties spec schema = .ok properties) :
    (schema.get? "properties").bind Json.obj? = some properties := by
  unfold tableProperties at h
  split at h
  · rename_i heq
    exact Except.ok.inj h ▸ heq
  · cases h

theorem tableProperties_of_objectProperties? {schema : Json} {given : Members}
    (hschema : schema = .obj members) (h : objectProperties? members = some properties)
    (hgiven : tableProperties spec schema = .ok given) : given = properties := by
  have hget := get?_of_tableProperties hgiven
  rw [hschema, Json.get?, get?_of_objectProperties? h] at hget
  exact (Option.some.inj hget).symm

/-- In the stub of a table stand its row, any part of it and the filter, in this order and set apart
from one another and from what follows. -/
theorem exists_source_columns (hentry : spec.tableEntry = .ok entry)
    (h : r.render spec = .ok stub) :
    ∃ properties, tableProperties spec entry.rowSchema = .ok properties ∧
      let name := leafOf entry.name
      let columns := Columns.ofSchema r.engine entry.rowSchema properties (name ++ "Row")
      ∃ front behind, stub.source = front ++
        Row.declarations r.engine entry.rowSchema (name ++ "Row") ++ "\n\n\n\n" ++
        (columns.subset (name ++ "Subset")).render ++ "\n\n\n\n" ++
        (columns.whereFilter (name ++ "WhereFilter")).render ++ "\n\n\n\n" ++ behind := by
  have hcategory : spec.category = .table := by
    unfold Spec.tableEntry Spec.requireCategory at hentry
    by_contra hne
    rw [if_neg hne] at hentry
    cases hentry
  unfold render at h
  rw [hcategory] at h
  unfold tableStub at h
  rw [hentry, Result.ok_bind] at h
  obtain ⟨path, -, h⟩ := Result.bind_eq_ok_iff.mp h
  obtain ⟨properties, hproperties, h⟩ := Result.bind_eq_ok_iff.mp h
  obtain rfl := Result.pure_eq_ok_iff.mp h
  refine ⟨properties, hproperties, ?_⟩
  dsimp only
  exact ⟨_, _, fill_tableClass rfl rfl rfl rfl rfl⟩

theorem exists_source_table (hentry : spec.tableEntry = .ok entry) (h : r.render spec = .ok stub)
    (hschema : entry.rowSchema = .obj members)
    (hproperties : objectProperties? members = some properties) :
    let name := leafOf entry.name
    let columns := Columns.ofSchema r.engine (.obj members) properties (name ++ "Row")
    ∃ front behind, stub.source = front ++
      Row.declarations r.engine (.obj members) (name ++ "Row") ++ "\n\n\n\n" ++
      (columns.subset (name ++ "Subset")).render ++ "\n\n\n\n" ++
      (columns.whereFilter (name ++ "WhereFilter")).render ++ behind := by
  obtain ⟨given, hgiven, hsource⟩ := exists_source_columns hentry h
  obtain rfl := tableProperties_of_objectProperties? hschema hproperties hgiven
  rw [hschema] at hsource
  obtain ⟨front, behind, hsource⟩ := hsource
  exact ⟨front, "\n\n\n\n" ++ behind, by rw [hsource, String.append_assoc]⟩

/-- **The queries of a table refer to classes that its row declares,** if the row is transparent and
the engine can type it: each name in quotes is that of the filter itself or is announced by the row,
and the class for an object is the one that the row has in its field for the column. -/
theorem tables_resolve {source : String} (hengine : r.engine = builtinEngine)
    (hentry : spec.tableEntry = .ok entry) (hstub : r.render spec = .ok stub)
    (hschema : entry.rowSchema = .obj members)
    (hrow : Transparent (leafOf entry.name ++ "Row") members properties)
    (hok : builtinEngine (normalizeEnums (.obj members)) (leafOf entry.name ++ "Row") =
      .ok source) :
    let name := leafOf entry.name
    let columns := Columns.ofSchema builtinEngine (.obj members) properties (name ++ "Row")
    let rows := Row.declarations builtinEngine (.obj members) (name ++ "Row")
    let subset := columns.subset (name ++ "Subset")
    let filter := columns.whereFilter (name ++ "WhereFilter")
    (∃ front behind, stub.source = front ++ rows ++ "\n\n\n\n" ++ subset.render ++ "\n\n\n\n" ++
      filter.render ++ behind) ∧
    (∀ quoted ∈ subset.quoted ++ filter.quoted,
      quoted = name ++ "WhereFilter" ∨ Announces rows quoted) ∧
    ∃ fields, DeclaredRow columns rows fields := by
  intro name columns rows subset filter
  have hsource := exists_source_table hentry hstub hschema hrow.record
  rw [hengine] at hsource
  obtain ⟨fields, hdeclared⟩ := exists_declaredRow hrow (tidy_rowName entry.name)
    (rootName_rowName _ entry.name "Dict") hok
  refine ⟨hsource, fun quoted hm => ?_, fields, hdeclared⟩
  -- a part of the row quotes classes of its columns, the filter only itself
  rcases List.mem_append.mp hm with hm | hm
  · have hpaired : ∀ column ∈ columns.properties, Paired (columns.typeOf column.1 column.2) := by
      intro column hcolumn
      obtain ⟨field, -, -, declared, -, hresolves⟩ := hdeclared.resolves column hcolumn
      exact hresolves.paired
    rw [Columns.quoted_subset columns _ hpaired] at hm
    obtain ⟨column, hcolumn, hm⟩ := List.mem_flatMap.mp hm
    obtain ⟨field, -, -, declared, hannounced, hresolves⟩ := hdeclared.resolves column hcolumn
    exact .inr (hannounced quoted (hresolves.declared hm))
  · refine .inl (Columns.quoted_whereFilter columns ?_ quoted hm)
    refine quote_not_mem_of_identifierChars fun c hc => ?_
    rw [String.toList_append, List.mem_append] at hc
    rcases hc with hc | hc
    · exact List.all_eq_true.mp (identifierChars_leafOf entry.name) c hc
    · exact List.all_eq_true.mp (by decide) c hc

/-- **A degraded row leaves its queries without their classes:** each column that is an object is
typed by a class that the row does not declare. -/
theorem degraded_undeclared {name : String} {engine : Engine} {e : SchemaError}
    (h : engine (normalizeEnums schema) (leafOf name ++ "Row") = .error e)
    (hdirect : isDirectObject (.obj members) = true) (hobject : ForObject members) :
    let columns := Columns.ofSchema engine schema properties (leafOf name ++ "Row")
    columns.typeOf column (.obj members) =
        "\"" ++ nestedName (leafOf name ++ "Row") column ++ "\"" ∧
      ¬ Announces (Row.declarations engine schema (leafOf name ++ "Row"))
        (nestedName (leafOf name ++ "Row") column) := by
  intro columns
  have hrow := tidy_rowName name
  have hrows := Row.declarations_of_error ((rootName_rowName schema name "Dict").symm ▸ h)
  have hplace : columns.classHint column (.obj members) =
      nestedName (leafOf name ++ "Row") column := by
    have hdeclared : columns.declared.lookup column = none := by
      rw [Columns.declared_ofSchema, hrows, Row.fields_degraded hrow]
      rfl
    rw [Columns.classHint, if_pos hdirect, hdeclared]
    rfl
  refine ⟨?_, ?_⟩
  · rw [Columns.typeOf_of_forObject hdirect hobject, hplace]
  · rw [hrows, Row.announces_degraded hrow (naming_tidy.nested hrow column)]
    exact nestedName_ne ⟨'w', by simp, by decide⟩ column

/-- A table of contacts. -/
def contacts (properties : Members) : Spec :=
  { Spec.blank with
    id := "1", name := "Contacts", category := .table
    schema := some (.obj [("type", .str "object"), ("properties", .obj properties)]) }

/-- The schema of an object with one property. -/
def recordSchema (property type : String) : Json :=
  .obj [("type", .str "object"), ("properties", .obj [(property, .obj [("type", .str type)])])]

/-- An address at home and one at work, under keys that make the same name. -/
def addresses : Members :=
  [("home_address", recordSchema "street" "string"), ("home-address", recordSchema "zip" "integer")]

theorem agreed_recordSchema (property type : String) : Agreed (recordSchema property type) := by
  refine .record (fun key hm => ?_) (.inl rfl) rfl fun m hm hkey => ?_
  · have hnone : ∀ key ∈ overridingKeys, key ≠ "type" ∧ key ≠ "properties" := by decide
    simp [Members.get?_cons, Members.get?_nil, hnone key hm]
  · simp only [List.mem_cons, List.not_mem_nil, or_false] at hm
    rcases hm with rfl | rfl
    · exact absurd hkey (by decide)
    · exact absurd hkey (show ¬ "properties" = "patternProperties" by decide)

/-- A row of two columns that want the same class is transparent. -/
theorem transparent_addresses : Transparent "ContactsRow"
    [("type", .str "object"), ("properties", .obj addresses)] addresses where
  plain key hm := by
    simp only [List.mem_cons, List.not_mem_nil, or_false] at hm
    rcases hm with rfl | rfl <;> rfl
  record := rfl
  distinct := by decide
  agreed column hm := by
    simp only [addresses, List.mem_cons, List.not_mem_nil, or_false] at hm
    rcases hm with rfl | rfl <;> exact agreed_recordSchema _ _
  legible column hm := by
    simp only [addresses, List.mem_cons, List.not_mem_nil, or_false] at hm
    rcases hm with rfl | rfl <;> exact ⟨by simp, by decide⟩
  worded column hm := by
    simp only [addresses, List.mem_cons, List.not_mem_nil, or_false] at hm
    rcases hm with rfl | rfl <;> exact List.all_eq_true.mp (by decide +kernel)
  unread schema hm := by
    simp only [addresses, List.map_cons, List.map_nil, List.mem_cons, List.not_mem_nil, or_false]
      at hm
    rcases hm with rfl | rfl | rfl <;> exact fun _ htext => by cases htext

/-- Of two columns that want the same class each has one that its row declares. -/
theorem tables_resolve_addresses : ∃ stub, plainRenderer.render (contacts addresses) = .ok stub ∧
    let schema := .obj [("type", .str "object"), ("properties", .obj addresses)]
    let columns := Columns.ofSchema builtinEngine schema addresses "ContactsRow"
    let rows := Row.declarations builtinEngine schema "ContactsRow"
    (∀ quoted ∈ (columns.subset "ContactsSubset").quoted, quoted = "ContactsWhereFilter" ∨
      Announces rows quoted) ∧
    ∃ fields, DeclaredRow columns rows fields ∧
      ∀ column ∈ addresses, ∃ field ∈ fields, field.name = column.1 ∧
        ∃ quoted, columns.typeOf column.1 column.2 = "\"" ++ quoted ++ "\"" ∧
          field.type = .ref quoted := by
  have hrender : (plainRenderer.render (contacts addresses)).toOption.isSome = true := by
    decide +kernel
  obtain ⟨stub, hstub⟩ := Option.isSome_iff_exists.mp hrender
  have hstub := Result.eq_ok_of_toOption hstub
  refine ⟨stub, hstub, ?_⟩
  intro schema columns rows
  have hleaf : leafOf "Contacts" = "Contacts" := by decide +kernel
  have hrow : leafOf "Contacts" ++ "Row" = "ContactsRow" := by rw [hleaf]; rfl
  have htyped : (builtinEngine (normalizeEnums schema)
      (leafOf "Contacts" ++ "Row")).toOption.isSome = true := by
    decide +kernel
  obtain ⟨source, hsource⟩ := Option.isSome_iff_exists.mp htyped
  have htransparent : Transparent (leafOf "Contacts" ++ "Row")
      [("type", .str "object"), ("properties", .obj addresses)] addresses :=
    hrow.symm ▸ transparent_addresses
  have hentry : (contacts addresses).tableEntry = .ok ⟨"1", "", "Contacts", "", schema⟩ := rfl
  obtain ⟨-, hquoted, fields, hdeclared⟩ :=
    tables_resolve (show plainRenderer.engine = builtinEngine from rfl) hentry hstub rfl
      htransparent (Result.eq_ok_of_toOption hsource)
  dsimp only at hquoted hdeclared
  rw [hleaf] at hquoted hdeclared
  -- both columns are objects, so each is typed by the class of its own field
  refine ⟨fun quoted hm => hquoted quoted (List.mem_append_left _ hm), fields, hdeclared,
    fun column hm => ?_⟩
  obtain ⟨field, hfield, hname, declared, -, hresolves⟩ := hdeclared.resolves column hm
  refine ⟨field, hfield, hname, ?_⟩
  simp only [addresses, List.mem_cons, List.not_mem_nil, or_false] at hm
  rcases hm with rfl | rfl <;> exact hresolves.object rfl _ rfl (.inl rfl)

/-- A contact whose owner is a pointer that leads nowhere. -/
def owned : Members :=
  [("address", recordSchema "city" "string"),
    ("owner", .obj [("$ref", .str "#/definitions/Missing")])]

/-- One column that cannot be typed takes the classes for all others with it. -/
theorem degraded_contacts : ∃ stub, plainRenderer.render (contacts owned) = .ok stub ∧
    let schema := .obj [("type", .str "object"), ("properties", .obj owned)]
    let columns := Columns.ofSchema builtinEngine schema owned "ContactsRow"
    "_ContactsRowAddress" ∈ (columns.subset "ContactsSubset").quoted ∧
    "_ContactsRowAddress" ≠ "ContactsWhereFilter" ∧
    ¬ Announces (Row.declarations builtinEngine schema "ContactsRow") "_ContactsRowAddress" := by
  have hrender : (plainRenderer.render (contacts owned)).toOption.isSome = true := by
    decide +kernel
  obtain ⟨stub, hstub⟩ := Option.isSome_iff_exists.mp hrender
  refine ⟨stub, Result.eq_ok_of_toOption hstub, ?_⟩
  intro schema columns
  have hleaf : leafOf "Contacts" = "Contacts" := by decide +kernel
  have hrow : leafOf "Contacts" ++ "Row" = "ContactsRow" := by rw [hleaf]; rfl
  have hnested : nestedName (leafOf "Contacts" ++ "Row") "address" = "_ContactsRowAddress" := by
    decide +kernel
  have hfails : (builtinEngine (normalizeEnums schema) (leafOf "Contacts" ++ "Row")).toOption =
      none := by
    decide +kernel
  -- the owner cannot be typed, so nothing is declared for the row
  cases hengine : builtinEngine (normalizeEnums schema) (leafOf "Contacts" ++ "Row") with
  | ok source =>
      rw [hengine] at hfails
      cases hfails
  | error e =>
      obtain ⟨htype, hmissing⟩ := @degraded_undeclared _ owned _ _ _ _ _ hengine
        (show isDirectObject (recordSchema "city" "string") = true from rfl) (.inl rfl)
      rw [hnested, hrow] at htype hmissing
      refine ⟨List.mem_flatMap.mpr ⟨_, List.mem_cons_self, ?_⟩, by decide, hmissing⟩
      show _ ∈ quotedNames ("NotRequired[" ++ ("Optional[" ++
        columns.typeOf "address" (recordSchema "city" "string") ++ "]") ++ "]")
      rw [show columns.typeOf "address" (recordSchema "city" "string") = _ from htype]
      decide +kernel

end Renderer

end StubGen
