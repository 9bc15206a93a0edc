import StubGen.Proofs.Schema.Records
import StubGen.Proofs.Schema.RecordText

/-!
# The keys of declared records

A record is declared for an object schema that is met in the document, and when its text is read,
its keys are the properties of that schema: all of them, in turn and each once, and those are marked
as required that the schema requires. That is so for every text of a property. The one exception is
a property that is private to a class, and it is only met in records that are written as classes:
`generate_keys`.
-/

namespace StubGen

/-! ## Objects with distinct keys -/

namespace Members

variable {members added : Members}

theorem nodup_keys_insert (h : members.keys.Nodup) (key : String) (value : Json) :
    (members.insert key value).keys.Nodup := by
  induction members with
  | nil => exact List.nodup_singleton key
  | cons first members ih =>
      obtain ⟨hfresh, hrest⟩ := List.nodup_cons.mp h
      unfold insert
      split
      · rename_i heq
        exact List.nodup_cons.mpr ⟨heq ▸ hfresh, hrest⟩
      · rename_i hne
        refine List.nodup_cons.mpr ⟨fun hm => ?_, ih hrest⟩
        exact (mem_keys_insert.mp hm).elim hfresh hne

theorem nodup_keys_insertAll (h : members.keys.Nodup) (added : Members) :
    (members.insertAll added).keys.Nodup := by
  induction added generalizing members with
  | nil => exact h
  | cons first added ih => exact ih (nodup_keys_insert h first.1 first.2)

end Members

namespace Json

variable {members : Members}

/-- No object in a value has a key twice. -/
def Distinct (value : Json) : Prop :=
  ∀ members, Within (.obj members) value → (Members.keys members).Nodup

theorem Distinct.inner {inner outer : Json} (h : Distinct outer) (hw : Within inner outer) :
    Distinct inner :=
  fun members hm => h members (hm.trans hw)

theorem distinct_of_scalar {value : Json} (harr : value.arr? = none) (hobj : value.obj? = none) :
    Distinct value := by
  intro members hw
  cases hw with
  | here => exact nomatch hobj
  | item => exact nomatch harr
  | member => exact nomatch hobj

@[simp] theorem distinct_str (text : String) : Distinct (.str text) := distinct_of_scalar rfl rfl

@[simp] theorem distinct_arr_iff {items : List Json} :
    Distinct (.arr items) ↔ ∀ item ∈ items, Distinct item := by
  refine ⟨fun h item hm => h.inner (.item hm .here), fun h members hw => ?_⟩
  cases hw with
  | item hm hw => exact h _ hm members hw

@[simp] theorem distinct_obj_iff :
    Distinct (.obj members) ↔ (Members.keys members).Nodup ∧ ∀ m ∈ members, Distinct m.2 := by
  refine ⟨fun h => ⟨h members .here, fun m hm => h.inner (.member hm .here)⟩, fun h inner hw => ?_⟩
  cases hw with
  | here => exact h.1
  | member hm hw => exact h.2 _ hm inner hw

end Json

namespace Schema

open Json Result

variable {document schema : Json} {root name : String} {members properties : Members}

theorem distinct_of_get? {key : String} {value : Json} (h : Distinct (.obj members))
    (hv : members.get? key = some value) : Distinct value :=
  h.inner (.member (Members.mem_of_get? hv) .here)

theorem distinct_mergedOf {resolved : List Json} (h : ∀ part ∈ resolved, Distinct part) :
    Distinct (mergedOf resolved) := by
  have hkeys : (mergedProperties resolved).keys.Nodup :=
    List.foldlRecOn (motive := fun all : Members => all.keys.Nodup) resolved _ List.nodup_nil
      fun all hall part _ => Members.nodup_keys_insertAll hall (partProperties part)
  have hproperties : Distinct (.obj (mergedProperties resolved)) := by
    refine distinct_obj_iff.mpr ⟨hkeys, fun m hm => ?_⟩
    obtain ⟨part, hpart, hm⟩ := exists_of_mem_merged hm
    obtain ⟨members, rfl, hget⟩ := get?_properties_of_partProperties hm
    exact (distinct_obj_iff.mp (distinct_of_get? (h _ hpart) hget)).2 m hm
  -- what is required is listed by a part, so it is distinct as the part is
  have hrequired : ∀ name ∈ resolved.flatMap partRequired, Distinct name := by
    intro name hname
    obtain ⟨part, hpart, hname⟩ := List.mem_flatMap.mp hname
    unfold partRequired at hname
    cases hr : (part.get? "required").bind arr? with
    | none => simp [hr] at hname
    | some names =>
        rw [hr] at hname
        cases part with
        | obj members =>
            have hnames := distinct_of_get? (h _ hpart) (get?_of_arrayUnder? hr)
            exact distinct_arr_iff.mp hnames name hname
        | _ => simp [Json.get?] at hr
  rw [mergedOf, distinct_obj_iff]
  simp only [List.forall_mem_cons, List.not_mem_nil, false_implies, implies_true, and_true]
  exact ⟨by simp [Members.keys], distinct_str _, hproperties, distinct_arr_iff.mpr hrequired⟩

/-- Distinct keys are handed down to all that a schema is typed by. -/
theorem hereditary_distinct : Hereditary Distinct where
  part h hpart := by
    obtain ⟨m, hm, hw⟩ := within_of_part hpart
    exact h.inner (.member hm hw)
  retyped h ht hm := by
    have htype := distinct_arr_iff.mp (distinct_of_get? h ht) _ hm
    rw [distinct_obj_iff] at h ⊢
    refine ⟨Members.nodup_keys_insert h.1 _ _, fun m hm => ?_⟩
    rcases Members.mem_insert hm with hm | rfl
    · exact h.2 m hm
    · exact htype
  merged h := distinct_mergedOf h

/-- What the document has and what is handed down, the schemas have that are declared. -/
theorem Hereditary.named {fit : Json → Prop} (h : Hereditary fit) (hfit : fit document)
    (hn : Named document root members) : fit (.obj members) := by
  cases hn with
  | root hr hf => exact h.flattenAllOf hfit (h.rootSchema hfit hr) hf
  | pointer _ _ ht hf => exact h.flattenAllOf hfit (h.target hfit ht) hf
  | nested hm => exact h.met hfit hm

/-- The properties of a schema that is declared have distinct names. -/
theorem nodup_properties (hd : Distinct document) (hn : Named document root members)
    (hp : objectProperties? members = some properties) : properties.keys.Nodup :=
  (distinct_obj_iff.mp (distinct_of_get? (hereditary_distinct.named hd hn)
    (get?_of_objectProperties? hp))).1

/-! ## Private names -/

/-- Only a private name does not stand for itself, and in a class with a name of underscores even
that does. -/
theorem attributeName_eq_self_iff {className : String} :
    attributeName className name = name ↔
      isPrivate name = false ∨ ∀ c ∈ className.toList, c = '_' := by
  have hempty : (className.toList.dropWhile (· = '_')).isEmpty = true ↔
      ∀ c ∈ className.toList, c = '_' := by
    rw [List.isEmpty_iff, List.dropWhile_eq_nil_iff]
    simp
  unfold attributeName
  rw [← hempty]
  dsimp only
  split
  · rename_i h
    rw [Bool.and_eq_true, Bool.not_eq_true'] at h
    refine iff_of_false (fun heq => ?_) (by simp [h])
    have := congrArg (List.length ∘ String.toList) heq
    simp at this
    omega
  · rename_i h
    refine iff_of_true rfl ?_
    simpa [imp_iff_not_or] using h

/-! ## Keys -/

/-- The keys of a record in text are the properties of a schema. -/
structure KeyedBy (d : Declaration) (members properties : Members) : Prop where
  /-- No property stands twice. -/
  distinct : properties.keys.Nodup
  /-- The keys are the properties in turn, in a class each as what it stands for there, and those
  are marked that the schema requires. -/
  read : readRecord? d.render = some (properties.map fun property =>
    (if d.isClass then attributeName d.name property.1 else property.1,
      (requiredNames members).contains property.1))
  /-- So they are just what the properties are called, but for private ones in a class. -/
  exact : readRecord? d.render = some (properties.map fun property =>
      (property.1, (requiredNames members).contains property.1)) ↔
    (d.isClass = true → ∀ property ∈ properties,
      isPrivate property.1 = true → ∀ c ∈ d.name.toList, c = '_')

/-- Fields that are made for properties are as many, with their names and their marks. -/
theorem map_fields {required : List String} {r : String × Json → TypeExpr → Prop}
    {fields : List Field} (h : List.Forall₂ (fun property field => ∃ type, r property type ∧
      field = fieldOf required property.1 property.2 type) properties fields)
    (key : String → String) :
    fields.map (fun field => (key field.name, field.required)) =
      properties.map fun property => (key property.1, required.contains property.1) := by
  induction h with
  | nil => rfl
  | cons hfirst _ ih =>
      obtain ⟨type, -, rfl⟩ := hfirst
      rw [List.map_cons, List.map_cons, ih]
      rfl

variable {maxDepth : Nat} {source : String} {final : Scope} {d : Declaration}

/-- Names are nonempty and of legal characters, if the root's is. -/
theorem legal_finalScope (hne : root ≠ "") (hroot : Spelled (isNamePart · = true) root)
    (hfinal : finalScope ⟨schema, root, maxDepth⟩ = .ok final) :
    ∀ d ∈ final.declarations, d.name ≠ "" ∧ d.Proper (Spelled (isNamePart · = true)) := by
  have hdeclared : declarations ⟨schema, root, maxDepth⟩ = .ok final.declarations := by
    rw [declarations_eq, hfinal]
    rfl
  intro d hm
  exact ⟨(legal_declarations (Base.legal .root hne hroot) hdeclared d hm).nonempty,
    proper_declarations alphabet_isNamePart.naming hroot hdeclared d hm⟩

/-- A record that was declared for a schema has its properties as keys. -/
theorem keyedBy_of_recordedFrom (hne : root ≠ "") (hroot : Spelled (isNamePart · = true) root)
    (hd : Distinct schema) (hfinal : finalScope ⟨schema, root, maxDepth⟩ = .ok final)
    (hnamed : Named schema root members)
    (hfrom : RecordedFrom ⟨schema, root, maxDepth⟩ final members d)
    (hp : objectProperties? members = some properties) (hnull : '\x00' ∉ d.render.toList) :
    KeyedBy d members properties := by
  obtain ⟨hmem, fields, heq, hfields⟩ := hfrom.fields hp
  obtain ⟨hname, hproper⟩ := legal_finalScope hne hroot hfinal d hmem
  have hclass : Declaration.fitsClass fields = d.isClass := by rw [heq, Declaration.isClass]
  have hread : readRecord? d.render = some (properties.map fun property =>
      (if d.isClass then attributeName d.name property.1 else property.1,
        (requiredNames members).contains property.1)) := by
    rw [heq] at hnull hproper
    have hrecord := readRecord?_render hname hproper.1 _ hproper.2 hnull
    rw [← heq, hclass] at hrecord
    rw [hrecord, map_fields hfields fun name =>
      if d.isClass then attributeName d.name name else name]
  refine ⟨nodup_properties hd hnamed hp, hread, ?_⟩
  rw [hread, Option.some_inj, List.map_inj_left]
  -- in a class a private key is read with the name of the class in front
  cases d.isClass with
  | false => simp
  | true =>
      simp only [if_true, Prod.mk.injEq, and_true, attributeName_eq_self_iff, true_imp_iff]
      refine forall₂_congr fun property _ => ?_
      cases isPrivate property.1 <;> simp

/-- **The keys of a record are the properties of its schema.** Every record of a module is declared
for an object schema that is met in the document, and its keys, as they are read in its text, are
the properties of that schema in turn, each once and marked exactly if it is required. Only if the
record is a class and one of its properties is private to it, is that property called otherwise. -/
theorem generate_keys (hne : root ≠ "") (hroot : ∀ c ∈ root.toList, isNamePart c = true)
    (hd : Distinct schema) (h : generate maxDepth schema root = .ok source) :
    ∃ final, finalScope ⟨schema, root, maxDepth⟩ = .ok final ∧
      source = Declaration.renderModule final.declarations ∧
      (∀ name doc fields, .record name doc fields ∈ final.declarations →
        ∃ members, Named schema root members ∧
          RecordedFrom ⟨schema, root, maxDepth⟩ final members (.record name doc fields)) ∧
      ∀ members properties d, Named schema root members →
        RecordedFrom ⟨schema, root, maxDepth⟩ final members d →
        objectProperties? members = some properties → '\x00' ∉ d.render.toList →
        KeyedBy d members properties := by
  obtain ⟨blocks, hblocks, rfl⟩ := map_eq_ok_iff.mp h
  rw [declarations_eq] at hblocks
  obtain ⟨final, hfinal, rfl⟩ := map_eq_ok_iff.mp hblocks
  exact ⟨final, hfinal, rfl, recorded_finalScope hfinal, fun _ _ _ hnamed hfrom hp hnull =>
    keyedBy_of_recordedFrom hne hroot hd hfinal hnamed hfrom hp hnull⟩

/-- A property that no class could have as a field, and a private one beside it. -/
def dashedProperties : Members :=
  [("a-b", .obj [("type", .str "string")]), ("__x", .obj [("type", .str "integer")])]

/-- An object with both of them. -/
def dashedMembers : Members :=
  [("properties", .obj dashedProperties), ("required", .arr [.str "a-b"])]

/-- Both are keys of a call as they stand. -/
theorem generate_keys_dashed :
    "Pet" ≠ "" ∧ (∀ c ∈ "Pet".toList, isNamePart c = true) ∧ Distinct (.obj dashedMembers) ∧
    objectProperties? dashedMembers = some dashedProperties ∧
    ∃ source, generate 4 (.obj dashedMembers) "Pet" = .ok source ∧
      ∃ d, source = Declaration.renderModule [d] ∧ KeyedBy d dashedMembers dashedProperties ∧
        readRecord? d.render = some [("a-b", true), ("__x", false)] := by
  let d : Declaration := .record "Pet" none
    [⟨"a-b", .str, true, some "Required property"⟩, ⟨"__x", .int, false, none⟩]
  let last : Scope := ⟨["Pet"], [], [d]⟩
  have hroot : ∀ c ∈ "Pet".toList, isNamePart c = true := List.all_eq_true.mp (by decide)
  have hd : Distinct (.obj dashedMembers) := by
    simp [dashedMembers, dashedProperties, Members.keys]
  have hlast : finalScope ⟨.obj dashedMembers, "Pet", 4⟩ = .ok last := by rfl
  have hnamed : Named (.obj dashedMembers) "Pet" dashedMembers := .root rfl rfl
  have hfrom : RecordedFrom ⟨.obj dashedMembers, "Pet", 4⟩ last dashedMembers d :=
    ⟨dashedProperties, 4, 1, ⟨["Pet"], [], []⟩, last, [], rfl, rfl, rfl, .refl _⟩
  have h : generate 4 (.obj dashedMembers) "Pet" = .ok (Declaration.renderModule [d]) := by
    rw [generate, declarations_eq, hlast]
    rfl
  obtain ⟨final, hfinal, -, -, hkeyed⟩ := generate_keys (by decide) hroot hd h
  obtain rfl := Except.ok.inj (hlast.symm.trans hfinal)
  have hkeys := hkeyed dashedMembers dashedProperties d hnamed hfrom rfl (by decide +kernel)
  exact ⟨by decide, hroot, hd, rfl, _, h, d, rfl, hkeys, hkeys.read.trans (by decide +kernel)⟩

/-- A property that is private to a class. -/
def privateSchema : Json :=
  .obj [("type", .str "object"),
    ("properties", .obj [("__typename", .obj [("type", .str "string")])])]

/-- It is a field of the only class, and that has another key instead. -/
theorem generate_private_key :
    ∃ d, (Scope.declarations <$> finalScope ⟨privateSchema, "Pet", 48⟩) = .ok [d] ∧
      generate 48 privateSchema "Pet" = .ok (Declaration.renderModule [d]) ∧
      Declaration.renderModule [d] = Declaration.header ++
        "class Pet(TypedDict, total=False):\n    __typename: str\n" ∧
      (privateSchema.get? "properties").bind Json.obj? =
        some [("__typename", .obj [("type", .str "string")])] ∧
      readRecord? d.render = some [("_Pet__typename", false)] := by
  let d : Declaration := .record "Pet" none [⟨"__typename", .str, false, none⟩]
  have hfinal : (Scope.declarations <$> finalScope ⟨privateSchema, "Pet", 48⟩) = .ok [d] := by rfl
  have hread : readRecord? d.render = some
      [(if Declaration.fitsClass [⟨"__typename", .str, false, none⟩] then
        attributeName "Pet" "__typename" else "__typename", false)] := by
    refine readRecord?_render (by decide) (by decide) none (fun field hm => ?_) (by decide +kernel)
    rw [List.mem_singleton.mp hm]
    trivial
  refine ⟨d, hfinal, ?_, by decide +kernel, rfl, hread.trans ?_⟩
  · rw [generate, declarations_eq, hfinal]
    rfl
  · decide +kernel

end Schema

end StubGen
