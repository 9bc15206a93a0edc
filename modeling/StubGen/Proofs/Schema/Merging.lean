import Mathlib.Data.Set.Card
import Mathlib.Logic.Relation
import StubGen.Proofs.Schema.Nesting
import StubGen.Proofs.Schema.Origins

/-!
# What an `allOf` gathers

A schema has the names that it lists, and the names of the parts of its `allOf`, each part with its
pointer followed: `Gathers`. The declaration of a schema reads less than that. An `allOf` stands in
the place of the schema, so nothing beside it is read, and of several parts only what they list
themselves. Schemas that have no more than what is read are `Mergeable`, and for them nothing is
lost: the class that such a document declares for its root has a field for each property that the
root gathers, and no other field, `generate_gathers`.

A part that is the only one and a pointer is not merged. Its target is declared under a name of its
own, and the root is an alias of that name. So the induction goes from a schema to what it draws
on, and comes to an end since no schema draws on itself.
-/

namespace StubGen.Schema

open Json Result Relation

variable {α : Type} {document inner outer schema flat : Json} {name : String}

/-! ## Names and parts -/

/-- What a schema lists names for. -/
inductive Listing where
  | properties
  | required
deriving DecidableEq

/-- The names that a schema itself lists. -/
def Listing.names (listing : Listing) (schema : Json) : List String :=
  match listing with
  | .properties => (partProperties schema).map Prod.fst
  | .required => (partRequired schema).filterMap Json.str?

/-- The parts of the `allOf` of a schema. -/
def parts? (schema : Json) : Option (List Json) := (schema.get? "allOf").bind Json.arr?

/-- The schemas that the parts of a schema's `allOf` stand for. -/
def drawn (document schema : Json) : List Json :=
  ((parts? schema).getD []).filterMap fun part => (resolvePart document part).toOption

/-- The first schema is what a part of the second one's `allOf` stands for. -/
def DrawnBy (document inner outer : Json) : Prop := inner ∈ drawn document outer

/-- The first schema is what the only part of the second one's `allOf` stands for. -/
def OnlyPartOf (document inner outer : Json) : Prop :=
  ∃ part, parts? outer = some [part] ∧ resolvePart document part = .ok inner

/-- A name is listed by a schema, or is gathered by a schema that it draws on. -/
inductive Gathers (document : Json) (listing : Listing) : Json → String → Prop where
  | own {schema : Json} {name : String} :
      name ∈ listing.names schema → Gathers document listing schema name
  | part {inner outer : Json} {name : String} :
      DrawnBy document inner outer → Gathers document listing inner name →
      Gathers document listing outer name

variable {listing : Listing}

theorem drawnBy_iff {parts : List Json} (h : parts? outer = some parts) :
    DrawnBy document inner outer ↔ ∃ part ∈ parts, resolvePart document part = .ok inner := by
  rw [DrawnBy, drawn, h, Option.getD_some, List.mem_filterMap]
  exact exists_congr fun part => and_congr_right fun _ =>
    ⟨eq_ok_of_toOption, fun hr => by rw [hr]; rfl⟩

theorem OnlyPartOf.drawnBy (h : OnlyPartOf document inner outer) : DrawnBy document inner outer :=
  let ⟨part, hparts, hr⟩ := h
  (drawnBy_iff hparts).mpr ⟨part, List.mem_cons_self, hr⟩

/-- A schema without an `allOf` gathers what it lists. -/
theorem gathers_iff_of_none (h : parts? schema = none) :
    Gathers document listing schema name ↔ name ∈ listing.names schema := by
  refine ⟨fun hg => ?_, .own⟩
  cases hg with
  | own hm => exact hm
  | part hd _ =>
      rw [DrawnBy, drawn, h] at hd
      exact absurd hd List.not_mem_nil

/-- A schema that lists nothing beside its `allOf` gathers what the parts do. -/
theorem gathers_iff_of_parts {parts : List Json} (h : parts? schema = some parts)
    (hbeside : listing.names schema = []) :
    Gathers document listing schema name ↔ ∃ part ∈ parts, ∃ inner,
      resolvePart document part = .ok inner ∧ Gathers document listing inner name := by
  constructor
  · intro hg
    cases hg with
    | own hm =>
        rw [hbeside] at hm
        exact absurd hm List.not_mem_nil
    | part hd hg =>
        obtain ⟨part, hpart, hr⟩ := (drawnBy_iff h).mp hd
        exact ⟨part, hpart, _, hr, hg⟩
  · rintro ⟨part, hpart, inner, hr, hg⟩
    exact .part ((drawnBy_iff h).mpr ⟨part, hpart, hr⟩) hg

/-! ## No way back -/

/-- What comes before a thing that has no way back to itself comes to an end, if it is finite. -/
theorem acc_of_finite {r : α → α → Prop} {a : α} (hfinite : {b | TransGen r b a}.Finite)
    (hacyclic : ∀ b, ReflTransGen r b a → ¬ TransGen r b b) : Acc r a := by
  refine .intro a fun b hb => ?_
  have hsub : {c | TransGen r c b} ⊆ {c | TransGen r c a} := fun c hc => hc.tail hb
  have hlt : {c | TransGen r c b}.ncard < {c | TransGen r c a}.ncard :=
    Set.ncard_lt_ncard ⟨hsub, fun hback => hacyclic b (.single hb) (hback (.single hb))⟩ hfinite
  exact acc_of_finite (hfinite.subset hsub) fun c hc => hacyclic c (hc.tail hb)
termination_by {b | TransGen r b a}.ncard

/-- What comes to an end never goes back to where it has been. -/
theorem not_transGen_of_acc {r : α → α → Prop} {a b : α} (h : Acc r a)
    (hb : ReflTransGen r b a) : ¬ TransGen r b b := by
  have hacc : Acc r b := by
    induction hb using ReflTransGen.head_induction_on with
    | refl => exact h
    | head hd _ ih => exact ih.inv hd
  exact not_transGen_self_of_acc hacc

theorem within_of_get? {value : Json} {key : String} (h : value.get? key = some inner) :
    Within inner value := by
  cases value with
  | obj members => exact .member (Members.mem_of_get? h) .here
  | _ => exact nomatch h

theorem within_of_target {reference : String} (h : target document reference = .ok schema) :
    Within schema document := by
  obtain ⟨key, -, hl⟩ := bind_eq_ok_iff.mp h
  have under : ∀ place, (document.get? place).bind (Json.get? · key) = some schema →
      Within schema document := by
    intro place hs
    obtain ⟨found, hfound, hschema⟩ := Option.bind_eq_some_iff.mp hs
    exact (within_of_get? hschema).trans (within_of_get? hfound)
  unfold lookup definition? at hl
  cases hfirst : (document.get? "definitions").bind (Json.get? · key) with
  | some found =>
      rw [hfirst] at hl
      exact under "definitions" (hfirst.trans (congrArg some (Except.ok.inj hl)))
  | none =>
      rw [hfirst, Option.orElse_none] at hl
      split at hl
      · exact under "$defs" (by rw [← Except.ok.inj hl]; assumption)
      · exact nomatch hl

theorem within_of_drawnBy (h : DrawnBy document inner outer) (ho : Within outer document) :
    Within inner document := by
  cases hp : parts? outer with
  | none =>
      rw [DrawnBy, drawn, hp] at h
      exact absurd h List.not_mem_nil
  | some parts =>
      obtain ⟨part, hpart, hr⟩ := (drawnBy_iff hp).mp h
      rw [resolvePart_eq] at hr
      split at hr
      · exact within_of_target hr
      · obtain ⟨value, hv, harr⟩ := Option.bind_eq_some_iff.mp hp
        cases value with
        | arr items =>
            obtain rfl := Option.some.inj harr
            rw [← Except.ok.inj hr]
            exact .trans (.item hpart .here) ((within_of_get? hv).trans ho)
        | _ => exact nomatch harr

/-- In a document there are only so many schemas, so one that does not draw on itself comes to an
end. -/
theorem acc_drawnBy (hw : Within schema document)
    (hacyclic : ∀ inner, ReflTransGen (DrawnBy document) inner schema →
      ¬ TransGen (DrawnBy document) inner inner) : Acc (DrawnBy document) schema := by
  refine acc_of_finite ((finite_within document).subset fun inner hi => ?_) hacyclic
  have hinner : TransGen (DrawnBy document) inner schema := hi
  induction hinner using TransGen.head_induction_on with
  | single hd => exact within_of_drawnBy hd hw
  | head hd ht ih => exact within_of_drawnBy hd (ih ht)

/-! ## Flattening -/

theorem flattenAllOf_of_none (h : parts? schema = none) :
    flattenAllOf document schema = .ok schema := by
  cases schema with
  | obj members =>
      have hnone : arrayUnder? members "allOf" = none := h
      rw [flattenAllOf_obj, hnone]
  | _ => rfl

/-- Nothing that a schema has is beyond what is read of it. -/
structure Mergeable (document schema : Json) : Prop where
  /-- What lists properties is an object schema. -/
  object : ∀ type, partProperties schema ≠ [] → schema.get? "type" = some type →
    type.isText "object" = true
  /-- Nothing is listed beside an `allOf`. -/
  beside : ∀ parts, parts? schema = some parts → ∀ listing : Listing, listing.names schema = []
  /-- An only part that is a pointer is nothing else. -/
  pointer : ∀ part, parts? schema = some [part] → part.getStr? "$ref" ≠ none →
    partProperties part = [] ∧ parts? part = none
  /-- None of several parts has an `allOf` itself. -/
  level : ∀ parts, parts? schema = some parts → (∀ part, parts ≠ [part]) →
    ∀ inner, DrawnBy document inner schema → parts? inner = none

/-- A schema is mergeable, and so is all that it comes to by way of only parts. Nothing is asked of
the parts behind several ones, which are read for what they list. -/
def MergeableThroughout (document schema : Json) : Prop :=
  ∀ inner, ReflTransGen (OnlyPartOf document) inner schema → Mergeable document inner

theorem MergeableThroughout.only (h : MergeableThroughout document outer)
    (hd : ReflTransGen (OnlyPartOf document) inner outer) : MergeableThroughout document inner :=
  fun innermost hi => h innermost (hi.trans hd)

/-- A flattened schema lists by itself what the schema gathers. -/
structure Settled (document schema flat : Json) : Prop where
  object : ∀ type, partProperties flat ≠ [] → flat.get? "type" = some type →
    type.isText "object" = true
  names : ∀ (listing : Listing) name,
    Gathers document listing schema name ↔ name ∈ listing.names flat

/-- A flattened schema is a pointer to one that gathers the same names. -/
structure Deferred (document schema flat : Json) (reference : String) : Prop where
  pointer : flat.getStr? "$ref" = some reference
  bare : partProperties flat = []
  only : ∀ next, target document reference = .ok next → TransGen (OnlyPartOf document) next schema
  names : ∀ (listing : Listing) name, Gathers document listing schema name ↔
    ∃ next, target document reference = .ok next ∧ Gathers document listing next name

theorem settled_of_none (h : parts? schema = none) (hm : Mergeable document schema) :
    Settled document schema schema where
  object := hm.object
  names _ _ := gathers_iff_of_none h

theorem names_properties_mergedOf (resolved : List Json) :
    name ∈ Listing.properties.names (mergedOf resolved) ↔
      ∃ part ∈ resolved, name ∈ Listing.properties.names part := by
  change name ∈ Members.keys (mergedProperties resolved) ↔ _
  unfold mergedProperties
  induction resolved using List.reverseRecOn with
  | nil => simp [Members.keys]
  | append_singleton resolved part ih =>
      rw [List.foldl_concat, Members.mem_keys_insertAll, ih]
      simp [Listing.names, Members.keys, or_and_right, exists_or]

/-- What is merged lists the names that the parts list. -/
theorem names_mergedOf (listing : Listing) (resolved : List Json) :
    name ∈ listing.names (mergedOf resolved) ↔ ∃ part ∈ resolved, name ∈ listing.names part := by
  cases listing with
  | properties => exact names_properties_mergedOf resolved
  | required =>
      have hrequired : partRequired (mergedOf resolved) = resolved.flatMap partRequired := rfl
      simp only [Listing.names, hrequired, List.mem_filterMap, List.mem_flatMap]
      grind

theorem settled_mergeParts {parts : List Json} {merged : Json} (hp : parts? schema = some parts)
    (hseveral : ∀ part, parts ≠ [part]) (hm : Mergeable document schema)
    (h : mergeParts document parts = .ok merged) : Settled document schema merged := by
  obtain ⟨resolved, hr, rfl⟩ := mergeParts_eq_ok_iff.mp h
  refine ⟨fun type _ htype => ?_, fun listing name => ?_⟩
  · rw [← Option.some.inj htype]
    rfl
  · rw [gathers_iff_of_parts hp (hm.beside parts hp listing), names_mergedOf]
    constructor
    · rintro ⟨part, hpart, inner, hinner, hg⟩
      have hlevel := hm.level parts hp hseveral inner ((drawnBy_iff hp).mpr ⟨part, hpart, hinner⟩)
      exact ⟨inner, (mem_mapM_iff hr).mpr ⟨part, hpart, hinner⟩, (gathers_iff_of_none hlevel).mp hg⟩
    · rintro ⟨inner, hinner, hname⟩
      obtain ⟨part, hpart, hpr⟩ := (mem_mapM_iff hr).mp hinner
      exact ⟨part, hpart, inner, hpr, .own hname⟩

theorem gathers_only {part : Json} (hp : parts? schema = some [part])
    (hm : Mergeable document schema) :
    Gathers document listing schema name ↔
      ∃ inner, resolvePart document part = .ok inner ∧ Gathers document listing inner name := by
  rw [gathers_iff_of_parts hp (hm.beside _ hp listing)]
  simp

theorem deferred_pointer {part : Json} {reference : String} (hp : parts? schema = some [part])
    (hm : Mergeable document schema) (hr : part.getStr? "$ref" = some reference) :
    Deferred document schema part reference := by
  have hresolve : resolvePart document part = target document reference := by
    rw [resolvePart_eq, hr]
  have hbare : partProperties part = [] := (hm.pointer part hp (by simp [hr])).1
  refine ⟨hr, hbare, fun next hn => ?_, fun listing name => ?_⟩
  · exact .single ⟨part, hp, hresolve.trans hn⟩
  · rw [gathers_only hp hm, hresolve]

/-- A schema with a single part that is no pointer flattens to what the part does. -/
theorem flattened_only {part : Json} (hp : parts? schema = some [part])
    (hm : Mergeable document schema) (hr : resolvePart document part = .ok part)
    (h : Settled document part flat ∨ ∃ reference, Deferred document part flat reference) :
    Settled document schema flat ∨ ∃ reference, Deferred document schema flat reference := by
  have honly : OnlyPartOf document part schema := ⟨part, hp, hr⟩
  have hsame : ∀ (listing : Listing) name, Gathers document listing schema name ↔
      Gathers document listing part name := fun listing name => by
    simp [gathers_only hp hm, hr]
  obtain hs | ⟨reference, hd⟩ := h
  · exact .inl ⟨hs.object, fun listing name => (hsame listing name).trans (hs.names _ _)⟩
  · exact .inr ⟨reference, hd.pointer, hd.bare, fun next hn => (hd.only next hn).tail honly,
      fun listing name => (hsame listing name).trans (hd.names _ _)⟩

/-- **Flattening a mergeable schema loses no name.** -/
theorem flattenAllOf_settled {schema : Json} (hm : MergeableThroughout document schema)
    (hf : flattenAllOf document schema = .ok flat) :
    Settled document schema flat ∨ ∃ reference, Deferred document schema flat reference := by
  have hself := hm schema .refl
  cases schema with
  | obj members =>
      rw [flattenAllOf_obj] at hf
      split at hf
      · rename_i part hp
        have honly : parts? (.obj members) = some [part] := hp
        have hsize := sizeOf_part hp
        cases hr : part.getStr? "$ref" with
        | some reference =>
            -- a pointer is where flattening stops: its target is met when the pointer is typed
            have hnone : parts? part = none := (hself.pointer part honly (by simp [hr])).2
            have hflat : part = flat :=
              Except.ok.inj ((flattenAllOf_of_none hnone).symm.trans hf)
            exact .inr ⟨reference, hflat ▸ deferred_pointer honly hself hr⟩
        | none =>
            have hresolve : resolvePart document part = .ok part := by rw [resolvePart_eq, hr]
            exact flattened_only honly hself hresolve
              (flattenAllOf_settled (hm.only (.single ⟨part, honly, hresolve⟩)) hf)
      · rename_i parts hseveral hp
        exact .inl (settled_mergeParts hp hseveral hself hf)
      · rename_i hp
        exact .inl (Except.ok.inj hf ▸ settled_of_none hp hself)
  | _ => exact .inl (Except.ok.inj hf ▸ settled_of_none rfl hself)
termination_by sizeOf schema

/-! ## The class of a schema -/

/-- The fields of the class that a name stands for: one declared under it, or under a name that it
is an alias of. -/
inductive ClassOf (declarations : List Declaration) : String → List Field → Prop where
  | declared {name : String} {doc : Option String} {fields : List Field} :
      .record name doc fields ∈ declarations → ClassOf declarations name fields
  | aliased {name other : String} {fields : List Field} :
      .alias name (.ref other) ∈ declarations → ClassOf declarations other fields →
      ClassOf declarations name fields

/-- Where no name is declared twice, a name stands for one class. -/
theorem ClassOf.unique {declarations : List Declaration} {fields fields' : List Field}
    (hnodup : (declarations.map Declaration.name).Nodup) (h : ClassOf declarations name fields)
    (h' : ClassOf declarations name fields') : fields = fields' := by
  have once : ∀ {d d'}, d ∈ declarations → d' ∈ declarations → d.name = d'.name → d = d' :=
    fun hd hd' => List.inj_on_of_nodup_map hnodup hd hd'
  induction h with
  | declared hd =>
      cases h' with
      | declared hd' => exact (Declaration.record.inj (once hd hd' rfl)).2.2
      | aliased hd' _ => exact nomatch once hd hd' rfl
  | aliased hd _ ih =>
      cases h' with
      | declared hd' => exact nomatch once hd hd' rfl
      | aliased hd' h' =>
          obtain ⟨-, heq⟩ := Declaration.alias.inj (once hd hd' rfl)
          rw [← TypeExpr.ref.inj heq] at h'
          exact ih h'

/-- The fields have the names of the properties that a schema gathers, and no others, and those
are required that it gathers as required. -/
structure FieldsOf (document schema : Json) (fields : List Field) : Prop where
  names : ∀ name, (∃ field ∈ fields, field.name = name) ↔
    Gathers document .properties schema name
  required : ∀ field ∈ fields, field.required = true ↔
    Gathers document .required schema field.name

theorem FieldsOf.congr {next : Json} {fields : List Field} (h : FieldsOf document next fields)
    (hsame : ∀ (listing : Listing) name,
      Gathers document listing schema name ↔ Gathers document listing next name) :
    FieldsOf document schema fields where
  names name := (h.names name).trans (hsame _ _).symm
  required field hm := (h.required field hm).trans (hsame _ _).symm

theorem partProperties_of_objectProperties? {members properties : Members}
    (hp : objectProperties? members = some properties) :
    partProperties (.obj members) = properties ∧ properties ≠ [] := by
  have hget : (Json.obj members).get? "properties" = some (.obj properties) :=
    get?_of_objectProperties? hp
  refine ⟨by simp [partProperties, hget, Json.obj?], ?_⟩
  rintro rfl
  have hget' : members.get? "properties" = some (.obj []) := hget
  simp [objectProperties?, hget', Json.obj?] at hp

/-- The fields made from the properties of a settled schema are those of the schema. -/
theorem fieldsOf_settled {members properties : Members} {fields : List Field}
    {typed : Json → TypeExpr → Prop} (hs : Settled document schema (.obj members))
    (hp : objectProperties? members = some properties)
    (hfields : List.Forall₂ (fun property field => ∃ type, typed property.2 type ∧
      field = fieldOf (requiredNames members) property.1 property.2 type) properties fields) :
    FieldsOf document schema fields := by
  -- all that counts of a field is its name and whether it is required
  have hmade : fields.map (fun field => (field.name, field.required)) =
      properties.map fun property =>
        (property.1, (requiredNames members).contains property.1) := by
    clear hp
    induction hfields with
    | nil => rfl
    | cons hfirst _ ih =>
        obtain ⟨type, -, rfl⟩ := hfirst
        rw [List.map_cons, List.map_cons, ih]
        rfl
  refine ⟨fun name => ?_, fun field hm => ?_⟩
  · have hnames := congrArg (List.map Prod.fst) hmade
    simp only [List.map_map, Function.comp_def] at hnames
    rw [hs.names, Listing.names, (partProperties_of_objectProperties? hp).1, ← List.mem_map,
      hnames]
  · obtain ⟨property, -, heq⟩ := List.mem_map.mp (hmade ▸ List.mem_map_of_mem hm)
    obtain ⟨hname, hrequired⟩ := Prod.mk.inj heq
    rw [hs.names, ← hrequired, ← hname]
    exact List.contains_iff_mem

/-- A settled schema with a property is declared as a record. -/
theorem objectProperties?_settled {flat : Json} (hs : Settled document schema flat)
    (hsome : Gathers document .properties schema name) :
    flat.obj?.bind objectProperties? ≠ none := by
  have hm := (hs.names .properties name).mp hsome
  cases flat with
  | obj members =>
      cases hp : (Members.get? members "properties").bind Json.obj? with
      | none =>
          have hnone : partProperties (.obj members) = [] := congrArg (Option.getD · []) hp
          simp [Listing.names, hnone] at hm
      | some properties =>
          have hlist : partProperties (.obj members) = properties :=
            congrArg (Option.getD · []) hp
          have hobject : ∀ type, Members.get? members "type" = some type →
              type.isText "object" = true := fun type =>
            hs.object type fun hnil => by simp [Listing.names, hnil] at hm
          -- a schema that lists a property has no type but that of objects
          cases properties with
          | nil => simp [Listing.names, hlist] at hm
          | cons property properties =>
              intro hnone
              simp only [Json.obj?, Option.bind_some, objectProperties?, hp] at hnone
              cases htype : Members.get? members "type" with
              | none => simp [htype] at hnone
              | some type => simp [htype, hobject type htype] at hnone
  | _ => simp [Listing.names, partProperties, Json.get?] at hm

/-- **What is declared for a mergeable schema is a class with what the schema gathers.** A schema
that is deferred to the target of a pointer has the class of the target. -/
theorem classOf_madeFrom {document : Document} {final : Scope} {schema : Json} {d : Declaration}
    (hfinal : finalScope document = .ok final) (hacc : Acc (DrawnBy document.schema) schema)
    (hm : MergeableThroughout document.schema schema)
    (hsome : ∃ name, Gathers document.schema .properties schema name)
    (hmade : MadeFrom document final schema d) :
    ∃ fields, ClassOf final.declarations d.name fields ∧
      FieldsOf document.schema schema fields := by
  -- a target may be several parts away, so the induction is on all that only parts lead to
  replace hacc := (Subrelation.accessible OnlyPartOf.drawnBy hacc).transGen
  induction hacc generalizing d with
  | intro schema _ ih =>
  obtain ⟨name, hname⟩ := hsome
  obtain ⟨flat, hflat, hcases⟩ := hmade.cases
  obtain hs | ⟨reference, hd⟩ := flattenAllOf_settled hm hflat
  · obtain ⟨members, properties, doc, fields, rfl, hp, heq, hfields⟩ | ⟨hnone, -⟩ := hcases
    · exact ⟨fields, .declared (heq ▸ hmade.mem), fieldsOf_settled hs hp hfields⟩
    · exact absurd hnone (objectProperties?_settled hs hname)
  · obtain ⟨next, hnext, hgathers⟩ := (hd.names .properties name).mp hname
    have hsame : ∀ (listing : Listing) name, Gathers document.schema listing schema name ↔
        Gathers document.schema listing next name := fun listing name => by
      simp [hd.names, hnext]
    obtain ⟨members, properties, _, _, rfl, hp, -, -⟩ | ⟨-, type, heq, htyped⟩ := hcases
    · -- a bare pointer is no record
      obtain ⟨hlisted, hne⟩ := partProperties_of_objectProperties? hp
      exact absurd (hlisted.symm.trans hd.bare) hne
    · obtain ⟨room, depth, hint, before, after, htype, hgrows⟩ := htyped
      obtain ⟨given, rfl, hgiven⟩ := nameOf?_of_typeAt htype hd.pointer
      obtain ⟨target', d', hdenoted, rfl, hmade'⟩ :=
        origin_of_named hfinal (nameOf?_mono hgrows hgiven)
      obtain rfl : next = target' := by
        unfold denoted at hdenoted
        split at hdenoted
        · subst reference
          exact nomatch hnext
        · exact Except.ok.inj (hnext.symm.trans hdenoted)
      obtain ⟨fields, hclass, hfields⟩ := ih next (hd.only next hnext)
        (hm.only (hd.only next hnext).to_reflTransGen) ⟨name, hgathers⟩ hmade'
      exact ⟨fields, .aliased (heq ▸ hmade.mem) hclass, hfields.congr hsame⟩

theorem within_of_rootSchema {root : String} {maxDepth : Nat} {pointer? : Option String}
    (h : rootSchema ⟨document, root, maxDepth⟩ = .ok (schema, pointer?)) :
    Within schema document := by
  cases pointer? with
  | some reference => exact within_of_target (target_of_rootSchema h)
  | none =>
      unfold rootSchema at h
      split at h
      · rw [← (Prod.mk.inj (Except.ok.inj h)).1]
        exact .here
      split at h
      · rw [← (Prod.mk.inj (Except.ok.inj h)).1]
        exact .here
      split at h
      · obtain ⟨_, -, h⟩ := bind_eq_ok_iff.mp h
        exact nomatch pure_eq_ok_iff.mp h
      · rw [← (Prod.mk.inj (Except.ok.inj h)).1]
        exact .here

/-- **Merging loses no property.** When the schema that the root stands for has a property, of its
own or by way of its `allOf`, and nothing in it lists names where they are not read, then a
generated module declares one class for the root. The class has a field for each property that the
schema gathers, and no other field, and a field is required when the schema gathers its name as
required, and only then. -/
theorem generate_gathers {maxDepth : Nat} {root source : String} {pointer? : Option String}
    (hroot : rootSchema ⟨document, root, maxDepth⟩ = .ok (schema, pointer?))
    (hacyclic : ∀ inner, ReflTransGen (DrawnBy document) inner schema →
      ¬ TransGen (DrawnBy document) inner inner)
    (hm : MergeableThroughout document schema)
    (hsome : ∃ name, Gathers document .properties schema name)
    (h : generate maxDepth document root = .ok source) :
    ∃ blocks : List Declaration, source = Declaration.renderModule blocks ∧
      (∃ fields, ClassOf blocks root fields) ∧
      ∀ fields, ClassOf blocks root fields → FieldsOf document schema fields := by
  obtain ⟨blocks, hblocks, hsource⟩ := map_eq_ok_iff.mp h
  have hdistinct := (closed_declarations hblocks).distinct
  rw [declarations_eq] at hblocks
  obtain ⟨final, hfinal, rfl⟩ := map_eq_ok_iff.mp hblocks
  have hroot' : final.nameOf? root "#" = some root := if_pos rfl
  obtain ⟨schema', d, hdenoted, hname, hmade⟩ := origin_of_named hfinal hroot'
  obtain rfl : schema' = schema := by
    have hfirst : denoted document root "#" = .ok schema := map_eq_ok_iff.mpr ⟨_, hroot, rfl⟩
    exact Except.ok.inj (hdenoted.symm.trans hfirst)
  obtain ⟨fields, hclass, hfields⟩ := classOf_madeFrom hfinal
    (acc_drawnBy (within_of_rootSchema hroot) hacyclic) hm hsome hmade
  -- names are distinct, so there is no second class for the root
  rw [hname] at hclass
  refine ⟨final.declarations, hsource.symm, ⟨fields, hclass⟩, fun other hother => ?_⟩
  rwa [hother.unique hdistinct hclass]

/-- An animal with a name. -/
def animalSchema : Json :=
  .obj [("type", .str "object"), ("properties", .obj [("name", .obj [("type", .str "string")])]),
    ("required", .arr [.str "name"])]

/-- What a breed adds. -/
def breedSchema : Json :=
  .obj [("properties", .obj [("breed", .obj [("type", .str "string")])])]

/-- An animal with a breed. -/
def dogSchema : Json :=
  .obj [("allOf", .arr [.obj [("$ref", .str "#/definitions/Animal")], breedSchema])]

/-- A document for a pet, which is a dog. -/
def petSchema : Json :=
  .obj [("allOf", .arr [.obj [("$ref", .str "#/definitions/Dog")]]),
    ("definitions", .obj [("Dog", dogSchema), ("Animal", animalSchema)])]

/-- What a part of one of these stands for is another one of them. -/
theorem drawn_petSchema : drawn petSchema petSchema = [dogSchema] ∧
    drawn petSchema dogSchema = [animalSchema, breedSchema] ∧
    drawn petSchema animalSchema = [] ∧ drawn petSchema breedSchema = [] :=
  ⟨rfl, rfl, rfl, rfl⟩

/-- The pet comes to a dog by its only part, and a dog has two. -/
theorem only_petSchema {inner : Json} (h : ReflTransGen (OnlyPartOf petSchema) inner petSchema) :
    inner = petSchema ∨ inner = dogSchema := by
  obtain ⟨hpet, -, -, -⟩ := drawn_petSchema
  induction h using ReflTransGen.head_induction_on with
  | refl => exact .inl rfl
  | head hd _ ih =>
      obtain rfl | rfl := ih
      · have hdrawn := hd.drawnBy
        rw [DrawnBy, hpet] at hdrawn
        exact .inr (List.mem_singleton.mp hdrawn)
      · obtain ⟨part, hparts, -⟩ := hd
        exact nomatch hparts

theorem acc_petSchema : Acc (DrawnBy petSchema) petSchema := by
  obtain ⟨hpet, hdog, hanimal, hbreed⟩ := drawn_petSchema
  have acc_of_drawn : ∀ {outer}, (∀ inner ∈ drawn petSchema outer, Acc (DrawnBy petSchema) inner) →
      Acc (DrawnBy petSchema) outer := fun h => .intro _ h
  refine acc_of_drawn (hpet ▸ List.forall_mem_singleton.mpr (acc_of_drawn (hdog ▸ ?_)))
  simp only [List.forall_mem_cons, List.not_mem_nil, false_implies, implies_true, and_true]
  exact ⟨acc_of_drawn (by simp [hanimal]), acc_of_drawn (by simp [hbreed])⟩

theorem mergeable_petSchema : MergeableThroughout petSchema petSchema := by
  obtain ⟨-, hdog, -, -⟩ := drawn_petSchema
  intro inner hi
  obtain rfl | rfl := only_petSchema hi
  · refine {
      object := fun type hne => absurd rfl hne
      beside := fun _ _ listing => by cases listing <;> rfl
      pointer := fun part hp _ => ?_
      level := fun parts hp hseveral => absurd (Option.some.inj hp).symm (hseveral _) }
    obtain ⟨rfl, -⟩ := List.cons.inj (Option.some.inj hp)
    exact ⟨rfl, rfl⟩
  · refine {
      object := fun type hne => absurd rfl hne
      beside := fun _ _ listing => by cases listing <;> rfl
      pointer := fun part hp _ => nomatch hp
      level := fun parts hp hseveral inner hd => ?_ }
    rw [DrawnBy, hdog] at hd
    simp only [List.mem_cons, List.not_mem_nil, or_false] at hd
    rcases hd with rfl | rfl <;> rfl

/-- The class for the pet has the dog's fields, and the animal's. -/
theorem generate_gathers_petSchema :
    ∃ source, generate 48 petSchema "Pet" = .ok source ∧
      rootSchema ⟨petSchema, "Pet", 48⟩ = .ok (petSchema, none) ∧
      ∃ blocks : List Declaration, source = Declaration.renderModule blocks ∧
        (∃ fields, ClassOf blocks "Pet" fields) ∧
        ∀ fields, ClassOf blocks "Pet" fields → FieldsOf petSchema petSchema fields := by
  have hroot : rootSchema ⟨petSchema, "Pet", 48⟩ = .ok (petSchema, none) := rfl
  have hname : Gathers petSchema .properties petSchema "breed" := by
    obtain ⟨hpet, hdog, -, -⟩ := drawn_petSchema
    have hbreed : Gathers petSchema .properties breedSchema "breed" := .own List.mem_cons_self
    have hdrawn : Gathers petSchema .properties dogSchema "breed" :=
      .part (by simp [DrawnBy, hdog]) hbreed
    exact .part (by simp [DrawnBy, hpet]) hdrawn
  have hok : (generate 48 petSchema "Pet").toBool = true := by decide +kernel
  match h : generate 48 petSchema "Pet" with
  | .ok source =>
      exact ⟨source, rfl, hroot, generate_gathers hroot
        (fun inner hi => not_transGen_of_acc acc_petSchema hi) mergeable_petSchema ⟨_, hname⟩ h⟩
  | .error _ =>
      rw [h] at hok
      exact Bool.noConfusion hok

/-- A schema with a property beside its `allOf`. -/
def besideSchema : Json :=
  .obj [("type", .str "object"), ("properties", .obj [("own", .obj [("type", .str "string")])]),
    ("allOf", .arr [.obj [("type", .str "object"),
      ("properties", .obj [("b", .obj [("type", .str "integer")])])]])]

/-- **What is listed beside an `allOf` is lost.** The schema has no pointer, and its only part has
no `allOf`; yet its own property is no field of the class. -/
theorem generate_drops_beside :
    ∃ blocks, declarations ⟨besideSchema, "Both", defaultMaxDepth⟩ = .ok blocks ∧
      (∀ inner, ReflTransGen (DrawnBy besideSchema) inner besideSchema →
        ¬ TransGen (DrawnBy besideSchema) inner inner) ∧
      Gathers besideSchema .properties besideSchema "own" ∧
      (∃ fields, ClassOf blocks "Both" fields) ∧
      ∀ fields, ClassOf blocks "Both" fields → ∀ field ∈ fields, field.name ≠ "own" := by
  have hblocks : declarations ⟨besideSchema, "Both", defaultMaxDepth⟩ =
      .ok [.record "Both" none [⟨"b", .int, false, none⟩]] := rfl
  have hacc : Acc (DrawnBy besideSchema) besideSchema := by
    refine .intro _ fun part hpart => .intro _ fun inner hinner => ?_
    rw [List.mem_singleton.mp hpart] at hinner
    exact absurd hinner List.not_mem_nil
  refine ⟨_, hblocks, fun inner hi => not_transGen_of_acc hacc hi, .own List.mem_cons_self,
    ⟨_, .declared List.mem_cons_self⟩, fun fields hclass field hm => ?_⟩
  cases hclass with
  | declared hd =>
      obtain ⟨-, -, rfl⟩ := Declaration.record.inj (List.mem_singleton.mp hd)
      rw [List.mem_singleton.mp hm]
      decide
  | aliased hd _ => exact nomatch List.mem_singleton.mp hd

end StubGen.Schema
