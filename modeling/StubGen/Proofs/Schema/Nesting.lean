import Mathlib.Data.Set.Card
import Mathlib.Data.Set.Finite.Lattice
import Mathlib.Logic.Relation
import StubGen.Proofs.Json.Values
import StubGen.Proofs.Schema.Composition

/-!
# What is nested in a schema

The types that a schema's own type is made of are those of the schemas nested in it. Most of them
stand in the schema and are smaller; but the merged parts of an `allOf` may come from anywhere in
the document, so a merge can be nested in itself. When none is, nothing nests for ever:
`acc_nests`. There are only so many merges in a document, and between two of them sizes fall.
-/

namespace StubGen

namespace Json

variable {kind : String × Json → Prop}

theorem finite_within (value : Json) : {inner | Within inner value}.Finite := by
  induction value using Json.induction with
  | scalar value harr hobj =>
      refine (Set.finite_singleton value).subset fun inner h => ?_
      cases h with
      | here => rfl
      | item => simp [arr?] at harr
      | member => simp [obj?] at hobj
  | arr items ih =>
      refine ((Set.finite_singleton (arr items)).union
        (Set.Finite.biUnion items.finite_toSet ih)).subset fun inner h => ?_
      cases h with
      | here => exact .inl rfl
      | item hm h => exact .inr (Set.mem_biUnion hm h)
  | obj members ih =>
      refine ((Set.finite_singleton (obj members)).union
        (Set.Finite.biUnion members.finite_toSet ih)).subset fun inner h => ?_
      cases h with
      | here => exact .inl rfl
      | member hm h => exact .inr (Set.mem_biUnion hm h)

/-! ## Pointers and merges anywhere in a value -/

/-- Every pointer and every merge in a value is of a kind, each with the key it stands under. -/
def Bears (kind : String × Json → Prop) (value : Json) : Prop :=
  ∀ members, Within (.obj members) value → ∀ m ∈ members, m.1 = "$ref" ∨ m.1 = "allOf" → kind m

theorem Bears.inner {inner outer : Json} (h : Bears kind outer) (hw : Within inner outer) :
    Bears kind inner :=
  fun members hm => h members (hm.trans hw)

theorem bears_of_scalar {value : Json} (harr : value.arr? = none) (hobj : value.obj? = none) :
    Bears kind value := by
  intro members hw
  cases hw with
  | here => simp [obj?] at hobj
  | item => simp [arr?] at harr
  | member => simp [obj?] at hobj

@[simp] theorem bears_str (text : String) : Bears kind (.str text) := bears_of_scalar rfl rfl

@[simp] theorem bears_arr_iff {items : List Json} :
    Bears kind (.arr items) ↔ ∀ item ∈ items, Bears kind item := by
  refine ⟨fun h item hm => h.inner (.item hm .here), fun h members hw => ?_⟩
  cases hw with
  | item hm hw => exact h _ hm members hw

@[simp] theorem bears_obj_iff {members : Members} :
    Bears kind (.obj members) ↔
      ∀ m ∈ members, (m.1 = "$ref" ∨ m.1 = "allOf" → kind m) ∧ Bears kind m.2 := by
  refine ⟨fun h m hm => ⟨h members .here m hm, h.inner (.member hm .here)⟩, fun h inner hw => ?_⟩
  cases hw with
  | here => exact fun m hm => (h m hm).1
  | member hm hw => exact (h _ hm).2 inner hw

end Json

namespace Schema

open Json Result Relation

variable {kind : String × Json → Prop} {document schema inner outer : Json}

/-! ## What is nested in a schema -/

/-- The schemas that the type of an object schema is made of. -/
def nestedInObject (members : Members) : List Json :=
  match objectProperties? members with
  | some properties => properties.map Prod.snd
  | none => (valueSchema? members).toList

/-- The schemas that the type of an array schema is made of. -/
def nestedInArray (members : Members) : List Json :=
  match members.get? "items" with
  | some (.arr items) => items
  | some item => [item]
  | none => []

/-- The schemas that the type of a schema with a `type` is made of. Of several types each one
stands for the schema with that type alone. -/
def nestedInTyped (members : Members) : List Json :=
  match members.get? "type" with
  | some (.arr types) => types.map fun type => .obj (members.insert "type" type)
  | some (.str type) =>
    match type with
    | "array" => nestedInArray members
    | "object" => nestedInObject members
    | _ => []
  | _ =>
    if members.hasKey "properties" then nestedInObject members
    else if members.hasKey "items" then nestedInArray members
    else []

/-- The only part of an `allOf`, or its parts merged. -/
def nestedInParts (document : Json) : List Json → List Json
  | [part] => [part]
  | parts => (mergeParts document parts).toOption.toList

/-- The schemas that the type of a schema is made of. A pointer is none of them, since its
target is named and not written out. -/
def nested (document schema : Json) : List Json :=
  match schema.obj? with
  | none => []
  | some members =>
    match schema.getStr? "$ref" with
    | some _ => []
    | none =>
      match members.get? "const", arrayUnder? members "enum", arrayUnder? members "anyOf",
          arrayUnder? members "oneOf", arrayUnder? members "allOf" with
      | some _, _, _, _, _ => []
      | none, some _, _, _, _ => []
      | none, none, some schemas, _, _ => schemas
      | none, none, none, some schemas, _ => schemas
      | none, none, none, none, some parts => nestedInParts document parts
      | none, none, none, none, none => nestedInTyped members

/-- The first schema is nested in the second one. -/
def Nests (document inner outer : Json) : Prop := inner ∈ nested document outer

/-- The schemas that are typed for the declaration of a schema. -/
def declaredIn (document schema : Json) : List Json :=
  match flattenAllOf document schema with
  | .error _ => []
  | .ok flat =>
    match flat.obj?.bind objectProperties? with
    | some properties => properties.map Prod.snd
    | none => [flat]

/-- The schemas that are met when a document is declared under a root name: from the root on
the nested ones, and where a pointer stands, those of its target. -/
inductive Met (document : Json) (root : String) : Json → Prop where
  | root {schema : Json} {pointer? : Option String} {inner : Json} :
      rootSchema ⟨document, root, 0⟩ = .ok (schema, pointer?) →
      inner ∈ declaredIn document schema → Met document root inner
  | nested {outer inner : Json} :
      Met document root outer → Nests document inner outer → Met document root inner
  | pointer {outer : Json} {reference : String} {schema inner : Json} :
      Met document root outer → outer.getStr? "$ref" = some reference →
      target document reference = .ok schema → inner ∈ declaredIn document schema →
      Met document root inner

/-! ## What nests -/

/-- What stands in an object schema as a schema: under a key, in a list, or under a name. -/
inductive Part : Json → Members → Prop where
  | under {members : Members} {key : String} {inner : Json} :
      key ∈ ["additionalProperties", "items"] → members.get? key = some inner → Part inner members
  | among {members : Members} {key : String} {items : List Json} {inner : Json} :
      key ∈ ["items", "anyOf", "oneOf", "allOf"] → members.get? key = some (.arr items) →
      inner ∈ items → Part inner members
  | named {members : Members} {key : String} {schemas : Members} {m : String × Json} :
      key ∈ ["properties", "patternProperties", "definitions", "$defs"] →
      members.get? key = some (.obj schemas) → m ∈ schemas → Part m.2 members

theorem within_of_part {members : Members} (h : Part inner members) :
    ∃ m ∈ members, Within inner m.2 := by
  cases h with
  | under _ hget => exact ⟨_, Members.mem_of_get? hget, .here⟩
  | among _ hget hm => exact ⟨_, Members.mem_of_get? hget, .item hm .here⟩
  | named _ hget hm => exact ⟨_, Members.mem_of_get? hget, .member hm .here⟩

theorem get?_of_arrayUnder? {members : Members} {key : String} {items : List Json}
    (h : arrayUnder? members key = some items) : members.get? key = some (.arr items) := by
  obtain ⟨value, hv, harr⟩ := Option.bind_eq_some_iff.mp h
  cases value with
  | arr found => rw [hv, Option.some.inj harr]
  | _ => simp [arr?] at harr

theorem sizeOf_part {members : Members} {part : Json}
    (h : arrayUnder? members "allOf" = some [part]) : sizeOf part < sizeOf (Json.obj members) := by
  have := Members.sizeOf_get? (get?_of_arrayUnder? h)
  simp only [Json.arr.sizeOf_spec, List.cons.sizeOf_spec] at this
  omega

theorem eq_of_obj? {value : Json} {members : Members} (h : value.obj? = some members) :
    value = .obj members := by
  cases value with
  | obj inner => rw [Option.some.inj h]
  | _ => simp [obj?] at h

theorem get?_of_obj? {found : Option Json} {members : Members}
    (h : found.bind obj? = some members) : found = some (.obj members) := by
  obtain ⟨value, rfl, hobj⟩ := Option.bind_eq_some_iff.mp h
  rw [eq_of_obj? hobj]

theorem get?_of_objectProperties? {members properties : Members}
    (h : objectProperties? members = some properties) :
    members.get? "properties" = some (.obj properties) := by
  unfold objectProperties? at h
  cases hp : (members.get? "properties").bind obj? with
  | none => simp [hp] at h
  | some found =>
      cases found with
      | nil => simp [hp] at h
      | cons property rest =>
          rw [hp] at h
          obtain ⟨-, h⟩ := Option.ite_none_right_eq_some.mp h
          rw [← Option.some.inj h]
          exact get?_of_obj? hp

theorem part_of_valueSchema? {members : Members} {schema : Json}
    (h : valueSchema? members = some schema) : Part schema members := by
  unfold valueSchema? at h
  cases hadditional : (members.get? "additionalProperties").filter Json.isObject with
  | some found =>
      rw [hadditional] at h
      rw [← Option.some.inj h]
      exact .under (by simp) (Option.filter_eq_some_iff.mp hadditional).1
  | none =>
    rw [hadditional] at h
    obtain ⟨patterns, hp, h⟩ := Option.bind_eq_some_iff.mp h
    obtain ⟨m, hm, rfl⟩ := Option.map_eq_some_iff.mp h
    exact .named (by simp) (get?_of_obj? hp) (List.mem_of_mem_head? hm)

theorem part_of_objectProperties? {members properties : Members} {property : String × Json}
    (h : objectProperties? members = some properties) (hm : property ∈ properties) :
    Part property.2 members :=
  .named (by simp) (get?_of_objectProperties? h) hm

theorem part_of_nestedInObject {members : Members} (h : inner ∈ nestedInObject members) :
    Part inner members := by
  unfold nestedInObject at h
  split at h
  · obtain ⟨m, hm, rfl⟩ := List.mem_map.mp h
    exact part_of_objectProperties? ‹_› hm
  · exact part_of_valueSchema? (Option.mem_toList.mp h)

theorem part_of_nestedInArray {members : Members} (h : inner ∈ nestedInArray members) :
    Part inner members := by
  unfold nestedInArray at h
  split at h
  · rename_i items hi
    exact .among (by simp) hi h
  · rename_i item _ hi
    rw [List.mem_singleton.mp h]
    exact .under (by simp) hi
  · exact absurd h List.not_mem_nil

theorem nestedInTyped_cases {members : Members} (h : inner ∈ nestedInTyped members) :
    Part inner members ∨ ∃ types, members.get? "type" = some (.arr types) ∧
      ∃ type ∈ types, inner = .obj (members.insert "type" type) := by
  unfold nestedInTyped at h
  split at h
  · rename_i types ht
    obtain ⟨type, hm, rfl⟩ := List.mem_map.mp h
    exact .inr ⟨types, ht, type, hm, rfl⟩
  · left
    split at h
    · exact part_of_nestedInArray h
    · exact part_of_nestedInObject h
    · exact absurd h List.not_mem_nil
  · left
    split at h
    · exact part_of_nestedInObject h
    · split at h
      · exact part_of_nestedInArray h
      · exact absurd h List.not_mem_nil

/-- What is nested in a schema stands in it, or is the schema with one of its types, or a
merge of its parts. -/
theorem nests_cases (h : Nests document inner outer) :
    ∃ members : Members, outer = .obj members ∧
      (Part inner members ∨
        (∃ types, members.get? "type" = some (.arr types) ∧
          ∃ type ∈ types, inner = .obj (members.insert "type" type)) ∨
        ∃ parts, members.get? "allOf" = some (.arr parts) ∧ (∀ part, parts ≠ [part]) ∧
          mergeParts document parts = .ok inner) := by
  unfold Nests nested at h
  split at h
  · exact absurd h List.not_mem_nil
  rename_i members hobj
  refine ⟨members, ?_, ?_⟩
  · exact eq_of_obj? hobj
  split at h
  · exact absurd h List.not_mem_nil
  split at h
  · exact absurd h List.not_mem_nil
  · exact absurd h List.not_mem_nil
  · have ha := get?_of_arrayUnder? ‹arrayUnder? members "anyOf" = some _›
    exact .inl (.among (by simp) ha h)
  · have ha := get?_of_arrayUnder? ‹arrayUnder? members "oneOf" = some _›
    exact .inl (.among (by simp) ha h)
  · -- an only part stands for the schema, several are merged
    have ha := get?_of_arrayUnder? ‹arrayUnder? members "allOf" = some _›
    unfold nestedInParts at h
    split at h
    · exact .inl (.among (by simp) ha h)
    · rename_i hseveral
      exact .inr (.inr ⟨_, ha, hseveral, eq_ok_of_toOption (Option.mem_toList.mp h)⟩)
  · exact (nestedInTyped_cases h).imp_right .inl

/-- What is nested in a schema is smaller, unless it is a merge. -/
theorem smaller_of_nests (h : Nests document inner outer) :
    sizeOf inner < sizeOf outer ∨
      ∃ (members : Members) (parts : List Json), outer = .obj members ∧
        members.get? "allOf" = some (.arr parts) ∧ (∀ part, parts ≠ [part]) ∧
        mergeParts document parts = .ok inner := by
  obtain ⟨members, rfl, hpart | ⟨types, ht, type, hm, rfl⟩ | ⟨parts, hmerge⟩⟩ := nests_cases h
  · obtain ⟨m, hm, hw⟩ := within_of_part hpart
    exact .inl (Nat.lt_of_le_of_lt (sizeOf_le_of_within hw) (sizeOf_snd_lt hm))
  · have := List.sizeOf_lt_of_mem hm
    exact .inl (Members.sizeOf_insert_lt ht (by simp only [Json.arr.sizeOf_spec]; omega))
  · exact .inr ⟨members, parts, rfl, hmerge⟩

/-! ## Merges -/

theorem resolvePart_eq (document part : Json) :
    resolvePart document part =
      match part.getStr? "$ref" with
      | some reference => target document reference
      | none => .ok part := rfl

/-- What parts of an `allOf` list as properties, one after another. -/
def mergedProperties (resolved : List Json) : Members :=
  resolved.foldl (fun all part => Members.insertAll all (partProperties part)) []

/-- Parts of an `allOf`, their pointers followed, as one object schema. -/
def mergedOf (resolved : List Json) : Json :=
  .obj
    [("type", .str "object"),
     ("properties", .obj (mergedProperties resolved)),
     ("required", .arr (resolved.flatMap partRequired))]

theorem mergeParts_eq_ok_iff {parts : List Json} {merged : Json} :
    mergeParts document parts = .ok merged ↔
      ∃ resolved, parts.mapM (resolvePart document) = .ok resolved ∧ mergedOf resolved = merged :=
  bind_eq_ok_iff.trans (exists_congr fun _ => and_congr_right fun _ => pure_eq_ok_iff)

theorem get?_properties_of_partProperties {part : Json} {m : String × Json}
    (h : m ∈ partProperties part) : ∃ members : Members, part = .obj members ∧
      members.get? "properties" = some (.obj (partProperties part)) := by
  unfold partProperties at h ⊢
  cases hp : (part.get? "properties").bind obj? with
  | none => simp [hp] at h
  | some properties =>
      cases part with
      | obj members => exact ⟨members, rfl, get?_of_obj? hp⟩
      | _ => simp [Json.get?] at hp

/-- What merged parts list as properties is listed by one of them. -/
theorem exists_of_mem_merged {resolved : List Json} {m : String × Json}
    (h : m ∈ mergedProperties resolved) : ∃ part ∈ resolved, m ∈ partProperties part := by
  have hall : ∀ m ∈ mergedProperties resolved, ∃ part ∈ resolved, m ∈ partProperties part :=
    List.foldlRecOn (motive := fun all : Members => ∀ m ∈ all, ∃ part ∈ resolved,
      m ∈ partProperties part) resolved _ (by simp) fun all hall part hpart m hm =>
        (Members.mem_insertAll hm).elim (hall m) fun hm => ⟨part, hpart, hm⟩
  exact hall m h

theorem flattenMembers_eq (document : Json) (members : Members) :
    flattenMembers document members = (members.get? "allOf").bind (flattenParts document) := by
  induction members with
  | nil => rfl
  | cons m members ih =>
      obtain ⟨key, value⟩ := m
      rw [flattenMembers, Members.get?_cons, ih]
      by_cases h : key = "allOf"
      · rw [if_pos h, if_pos h.symm, Option.bind_some]
      · rw [if_neg h, if_neg (Ne.symm h)]

theorem flattenAllOf_obj (document : Json) (members : Members) :
    flattenAllOf document (.obj members) =
      match arrayUnder? members "allOf" with
      | some [part] => flattenAllOf document part
      | some parts => mergeParts document parts
      | none => .ok (.obj members) := by
  rw [flattenAllOf, flattenMembers_eq, arrayUnder?]
  cases Members.get? members "allOf" with
  | none => rfl
  | some value =>
      cases value with
      | arr parts =>
          match parts with
          | [] => rfl
          | [_] => rfl
          | _ :: _ :: _ => rfl
      | _ => rfl

/-! ## What is handed down -/

/-- A property of schemas that is handed down to all that they are typed by. -/
structure Hereditary (fit : Json → Prop) : Prop where
  part : ∀ {members inner}, fit (.obj members) → Part inner members → fit inner
  retyped : ∀ {members : Members} {types type}, fit (.obj members) →
    members.get? "type" = some (.arr types) → type ∈ types →
    fit (.obj (members.insert "type" type))
  merged : ∀ {resolved}, (∀ part ∈ resolved, fit part) → fit (mergedOf resolved)

namespace Hereditary

variable {fit : Json → Prop} (h : Hereditary fit)
include h

theorem definition? {key : String} (hfit : fit document)
    (hd : definition? document key = some schema) : fit schema := by
  have under : ∀ {name : String}, name ∈ ["definitions", "$defs"] →
      (document.get? name).bind (Json.get? · key) = some schema → fit schema := by
    intro name hkey hname
    obtain ⟨found, hfound, hschema⟩ := Option.bind_eq_some_iff.mp hname
    cases document with
    | obj members =>
        cases found with
        | obj inner =>
            have hnamed : name ∈ ["properties", "patternProperties", "definitions", "$defs"] :=
              List.mem_cons_of_mem _ (List.mem_cons_of_mem _ hkey)
            exact h.part hfit (.named hnamed hfound (Members.mem_of_get? hschema))
        | _ => simp [Json.get?] at hschema
    | _ => simp [Json.get?] at hfound
  unfold Schema.definition? at hd
  -- the first section goes before the second
  cases hfirst : (document.get? "definitions").bind (Json.get? · key) with
  | some found =>
      exact under List.mem_cons_self (by rw [hfirst] at hd ⊢; exact hd)
  | none =>
      have hkey : "$defs" ∈ ["definitions", "$defs"] := by simp
      exact under hkey (by rw [hfirst] at hd; exact hd)

theorem target {reference : String} (hfit : fit document)
    (ht : target document reference = .ok schema) : fit schema := by
  obtain ⟨key, -, hl⟩ := bind_eq_ok_iff.mp ht
  unfold lookup at hl
  split at hl
  · rename_i hd
    rw [← Except.ok.inj hl]
    exact h.definition? hfit hd
  · exact nomatch hl

theorem mergeParts {parts : List Json} {merged : Json} (hfit : fit document)
    (hp : ∀ part ∈ parts, fit part) (hm : mergeParts document parts = .ok merged) :
    fit merged := by
  obtain ⟨resolved, hr, rfl⟩ := mergeParts_eq_ok_iff.mp hm
  refine h.merged fun part hpart => ?_
  obtain ⟨given, hgiven, hstep⟩ := exists_of_mem_mapM hr hpart
  rw [resolvePart_eq] at hstep
  split at hstep
  · exact h.target hfit hstep
  · exact Except.ok.inj hstep ▸ hp given hgiven

theorem flattenAllOf {schema flat : Json} (hfit : fit document) (hs : fit schema)
    (hf : flattenAllOf document schema = .ok flat) : fit flat := by
  cases schema with
  | obj members =>
      have hparts : ∀ {parts}, arrayUnder? members "allOf" = some parts →
          ∀ part ∈ parts, fit part := fun ha part hpart =>
        h.part hs (.among (by simp) (get?_of_arrayUnder? ha) hpart)
      rw [flattenAllOf_obj] at hf
      split at hf
      · rename_i part ha
        have := sizeOf_part ha
        exact flattenAllOf hfit (hparts ha part List.mem_cons_self) hf
      · rename_i parts _ ha
        exact h.mergeParts hfit (hparts ha) hf
      · exact Except.ok.inj hf ▸ hs
  | _ => exact Except.ok.inj hf ▸ hs
termination_by sizeOf schema

theorem declaredIn (hfit : fit document) (hs : fit schema)
    (hm : inner ∈ declaredIn document schema) : fit inner := by
  unfold Schema.declaredIn at hm
  split at hm
  · exact absurd hm List.not_mem_nil
  · rename_i flat hf
    have hflat := h.flattenAllOf hfit hs hf
    split at hm
    · rename_i properties hp
      obtain ⟨members, hobj, hproperties⟩ := Option.bind_eq_some_iff.mp hp
      obtain rfl := eq_of_obj? hobj
      obtain ⟨m, hproperty, rfl⟩ := List.mem_map.mp hm
      exact h.part hflat (part_of_objectProperties? hproperties hproperty)
    · rwa [List.mem_singleton.mp hm]

theorem nests (hfit : fit document) (ho : fit outer) (hn : Nests document inner outer) :
    fit inner := by
  obtain ⟨members, rfl, hpart | ⟨types, ht, type, hm, rfl⟩ | ⟨parts, hget, -, hmerge⟩⟩ :=
    nests_cases hn
  · exact h.part ho hpart
  · exact h.retyped ho ht hm
  · exact h.mergeParts hfit (fun part hp => h.part ho (.among (by simp) hget hp)) hmerge

theorem rootSchema {root : String} {maxDepth : Nat} {pointer? : Option String}
    (hfit : fit document) (hr : rootSchema ⟨document, root, maxDepth⟩ = .ok (schema, pointer?)) :
    fit schema := by
  unfold Schema.rootSchema at hr
  split at hr
  · exact (Prod.mk.inj (Except.ok.inj hr)).1 ▸ hfit
  · rename_i reference hreference
    split at hr
    · exact (Prod.mk.inj (Except.ok.inj hr)).1 ▸ hfit
    · rename_i key hkey
      split at hr
      · obtain ⟨found, hl, hr⟩ := bind_eq_ok_iff.mp hr
        obtain ⟨rfl, -⟩ := Prod.mk.inj (pure_eq_ok_iff.mp hr)
        have hkey' : requireKey reference = .ok key := by simp [requireKey, hkey]
        exact h.target hfit (bind_eq_ok_iff.mpr ⟨key, hkey', hl⟩)
      · exact (Prod.mk.inj (Except.ok.inj hr)).1 ▸ hfit

/-- What the document has and what is handed down, all schemas have that are met. -/
theorem met {root : String} (hfit : fit document) (hm : Met document root schema) :
    fit schema := by
  induction hm with
  | root hr hd => exact h.declaredIn hfit (h.rootSchema hfit hr) hd
  | nested _ hn ih => exact h.nests hfit ih hn
  | pointer _ _ ht hd _ => exact h.declaredIn hfit (h.target hfit ht) hd

end Hereditary

/-! ## Pointers and merges are handed down -/

theorem bears_of_get? {members : Members} {key : String} {value : Json}
    (h : Bears kind (.obj members)) (hv : members.get? key = some value) : Bears kind value :=
  h.inner (.member (Members.mem_of_get? hv) .here)

theorem bears_partRequired {part : Json} (h : Bears kind part) :
    ∀ name ∈ partRequired part, Bears kind name := by
  intro name hm
  unfold partRequired at hm
  cases hr : (part.get? "required").bind arr? with
  | none => simp [hr] at hm
  | some names =>
      rw [hr] at hm
      cases part with
      | obj members =>
          have := bears_of_get? h (get?_of_arrayUnder? hr)
          exact bears_arr_iff.mp this name hm
      | _ => simp [Json.get?] at hr

theorem bears_mergedOf {resolved : List Json} (h : ∀ part ∈ resolved, Bears kind part) :
    Bears kind (mergedOf resolved) := by
  have hproperties : Bears kind (.obj (mergedProperties resolved)) := by
    rw [bears_obj_iff]
    intro m hm
    obtain ⟨part, hpart, hm⟩ := exists_of_mem_merged hm
    obtain ⟨members, rfl, hget⟩ := get?_properties_of_partProperties hm
    exact bears_obj_iff.mp (bears_of_get? (h _ hpart) hget) m hm
  have hrequired : ∀ name ∈ resolved.flatMap partRequired, Bears kind name := by
    intro name hname
    obtain ⟨part, hpart, hname⟩ := List.mem_flatMap.mp hname
    exact bears_partRequired (h part hpart) name hname
  rw [mergedOf, bears_obj_iff]
  simp only [List.forall_mem_cons, List.not_mem_nil, false_implies, implies_true, and_true]
  exact ⟨⟨by simp, bears_str _⟩, ⟨by simp, hproperties⟩, by simp, bears_arr_iff.mpr hrequired⟩

/-- All pointers and merges in what a schema is typed by are the schema's own, or the
document's. -/
theorem hereditary_bears (kind : String × Json → Prop) : Hereditary (Bears kind) where
  part h hpart := by
    obtain ⟨m, hm, hw⟩ := within_of_part hpart
    exact h.inner (.member hm hw)
  retyped h ht hm := by
    have htype := bears_arr_iff.mp (bears_of_get? h ht) _ hm
    rw [bears_obj_iff] at h ⊢
    intro m hm
    rcases Members.mem_insert hm with hm | rfl
    · exact h m hm
    · exact ⟨by simp, htype⟩
  merged h := bears_mergedOf h

/-! ## Nothing nests for ever -/

/-- The merges in a document that a schema is not nested in yet. -/
def unmerged (document schema : Json) : Set Json :=
  {value | Within value document ∧ ¬ ∃ parts merged, value = .arr parts ∧
    mergeParts document parts = .ok merged ∧ ReflTransGen (Nests document) schema merged}

theorem unmerged_subset (h : Nests document inner outer) :
    unmerged document inner ⊆ unmerged document outer := by
  rintro value ⟨hw, hfree⟩
  refine ⟨hw, fun ⟨parts, merged, hv, hm, hreach⟩ => hfree ⟨parts, merged, hv, hm, ?_⟩⟩
  exact .head h hreach

theorem finite_unmerged (document schema : Json) : (unmerged document schema).Finite :=
  (finite_within document).subset fun _ hv => hv.1

/-- A merge that is not nested in itself is used up by the schema that it stands in. -/
theorem ncard_unmerged_lt {parts : List Json} (hw : Within (.arr parts) document)
    (hm : mergeParts document parts = .ok inner) (hn : Nests document inner outer)
    (hacyclic : ¬ TransGen (Nests document) inner inner) :
    (unmerged document inner).ncard < (unmerged document outer).ncard := by
  have hfree : .arr parts ∈ unmerged document outer := by
    refine ⟨hw, fun ⟨parts', merged, hv, hm', hreach⟩ => hacyclic ?_⟩
    obtain rfl : parts = parts' := Json.arr.inj hv
    obtain rfl : inner = merged := Except.ok.inj (hm.symm.trans hm')
    exact .head' hn hreach
  have hused : .arr parts ∉ unmerged document inner :=
    fun hmem => hmem.2 ⟨parts, inner, rfl, hm, .refl⟩
  exact Set.ncard_lt_ncard ⟨unmerged_subset hn, fun hsubset => hused (hsubset hfree)⟩
    (finite_unmerged document outer)

/-- Each schema nested in another one is smaller or uses up a merge. -/
theorem decreases_of_nests {root : String} (h : Met document root outer)
    (hacyclic : ¬ TransGen (Nests document) inner inner) (hn : Nests document inner outer) :
    Prod.Lex (· < ·) (· < ·) ((unmerged document inner).ncard, sizeOf inner)
      ((unmerged document outer).ncard, sizeOf outer) := by
  rcases smaller_of_nests hn with hlt | ⟨members, parts, rfl, hget, -, hm⟩
  · have hle := Set.ncard_le_ncard (unmerged_subset hn) (finite_unmerged document outer)
    rcases hle.lt_or_eq with hfewer | heq
    · exact .left _ _ hfewer
    · rw [heq]
      exact .right _ hlt
  · have hown : Bears (fun m => Within m.2 document) document :=
      fun members hw m hmem _ => .trans (.member hmem .here) hw
    have hw := (hereditary_bears _).met hown h members .here _ (Members.mem_of_get? hget) (.inr rfl)
    exact .left _ _ (ncard_unmerged_lt hw hm hn hacyclic)

/-- **What is not nested in itself does not nest for ever.** -/
theorem acc_nests {root : String}
    (hacyclic : ∀ schema, Met document root schema → ¬ TransGen (Nests document) schema schema)
    {schema : Json} (h : Met document root schema) : Acc (Nests document) schema :=
  .intro schema fun inner hn => acc_nests hacyclic (.nested h hn)
termination_by ((unmerged document schema).ncard, sizeOf schema)
decreasing_by exact decreases_of_nests h (hacyclic inner (.nested h hn)) hn

/-! ## Documents whose merges are plain -/

/-- A merge of one part, or of parts that are no pointers. -/
def PlainMerge (m : String × Json) : Prop :=
  m.1 = "allOf" → ∀ parts, m.2 = .arr parts →
    (∃ part, parts = [part]) ∨ ∀ part ∈ parts, part.getStr? "$ref" = none

theorem nested_merged (document : Json) (properties : Members) (required : List Json) :
    nested document (.obj [("type", .str "object"), ("properties", .obj properties),
      ("required", .arr required)]) = properties.map Prod.snd := by
  cases properties with
  | nil => rfl
  | cons property properties => rfl

theorem mapM_resolvePart_of_plain {parts resolved : List Json}
    (hplain : ∀ part ∈ parts, part.getStr? "$ref" = none)
    (h : parts.mapM (resolvePart document) = .ok resolved) : resolved = parts := by
  induction parts generalizing resolved with
  | nil => exact mapM_nil_eq_ok_iff.mp h
  | cons part parts ih =>
      obtain ⟨first, rest, hfirst, hrest, rfl⟩ := mapM_cons_eq_ok_iff.mp h
      rw [resolvePart_eq, hplain part List.mem_cons_self] at hfirst
      rw [ih (fun other hm => hplain other (List.mem_cons_of_mem _ hm)) hrest,
        Except.ok.inj hfirst]

theorem sizeOf_of_mem_partProperties {part : Json} {m : String × Json}
    (h : m ∈ partProperties part) : sizeOf m.2 < sizeOf part := by
  obtain ⟨members, rfl, hget⟩ := get?_properties_of_partProperties h
  exact Nat.lt_trans (sizeOf_snd_lt h) (Members.sizeOf_get? hget)

/-- What is nested in a merge of plain parts is a property of one of them. -/
theorem smaller_of_nests_merged {parts : List Json} {merged : Json}
    (hplain : ∀ part ∈ parts, part.getStr? "$ref" = none)
    (hm : mergeParts document parts = .ok merged) (hn : Nests document inner merged) :
    ∃ part ∈ parts, sizeOf inner < sizeOf part := by
  obtain ⟨resolved, hr, rfl⟩ := mergeParts_eq_ok_iff.mp hm
  obtain rfl := mapM_resolvePart_of_plain hplain hr
  rw [Nests, mergedOf, nested_merged] at hn
  obtain ⟨m, hm, rfl⟩ := List.mem_map.mp hn
  obtain ⟨part, hpart, hm⟩ := exists_of_mem_merged hm
  exact ⟨part, hpart, sizeOf_of_mem_partProperties hm⟩

theorem acc_of_plain (hd : Bears PlainMerge document) {schema : Json}
    (hs : Bears PlainMerge schema) : Acc (Nests document) schema := by
  refine .intro schema fun inner hn => ?_
  have hinner := (hereditary_bears _).nests hd hs hn
  rcases smaller_of_nests hn with hlt | ⟨members, parts, rfl, hget, hseveral, hm⟩
  · exact acc_of_plain hd hinner
  -- the merge may be larger than the schema, but what is nested in the merge is not
  · refine .intro inner fun innermost hn' => ?_
    have hplain : ∀ part ∈ parts, part.getStr? "$ref" = none :=
      (hs members .here _ (Members.mem_of_get? hget) (.inr rfl) rfl parts rfl).resolve_left
        fun ⟨part, hp⟩ => hseveral part hp
    obtain ⟨part, hpart, hlt⟩ := smaller_of_nests_merged hplain hm hn'
    have hlt' : sizeOf innermost < sizeOf (Json.obj members) := by
      have := List.sizeOf_lt_of_mem hpart
      have := Members.sizeOf_get? hget
      simp only [Json.arr.sizeOf_spec] at this
      omega
    exact acc_of_plain hd ((hereditary_bears _).nests hd hinner hn')
termination_by sizeOf schema

theorem not_transGen_self_of_acc {α : Type} {r : α → α → Prop} {a : α} (h : Acc r a) :
    ¬ TransGen r a a := by
  have hacc := h.transGen
  clear h
  induction hacc with
  | intro a _ ih => exact fun hself => ih a hself hself

/-- **Nothing is nested in itself when each merge is of one part or of plain parts.** So recursion
comes to an end at a pointer wherever it goes by way of properties, items, unions, values and
single parts. -/
theorem acyclic_of_plain {root : String} (hd : Bears PlainMerge document)
    (h : Met document root schema) : ¬ TransGen (Nests document) schema schema :=
  not_transGen_self_of_acc (acc_of_plain hd ((hereditary_bears _).met hd h))

end Schema

end StubGen
