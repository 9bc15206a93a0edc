import StubGen.Proofs.Schema.Depth
import StubGen.Proofs.Schema.Origins

/-!
# Which records are declared

A record is only declared for an object schema with properties, and only for one that is met on the
way through the document: as the root, as what a pointer leads to, or nested in another schema. To
see that, the document is walked through once: what pure steps, claims, aliases and the records for
such schemas have, typing every schema that is met has: `Walk`. So each record that is declared in
the end has been made from a schema that was met, property by property: `recorded_finalScope`.
-/

namespace StubGen.Schema

open Result

variable {α β : Type} {document : Document} {typeOf : TypeOf} {room depth : Nat}
  {members properties : Members} {schema inner : Json}

/-! ## Walking through a document -/

/-- The object schemas that may be declared under a name of their own: the root, what a pointer
leads to, each with its parts merged, and what is nested in them. -/
inductive Named (document : Json) (root : String) : Members → Prop where
  | root {schema : Json} {pointer? : Option String} {members : Members} :
      rootSchema ⟨document, root, 0⟩ = .ok (schema, pointer?) →
      flattenAllOf document schema = .ok (.obj members) → Named document root members
  | pointer {outer : Json} {reference : String} {schema : Json} {members : Members} :
      Met document root outer → outer.getStr? "$ref" = some reference →
      target document reference = .ok schema →
      flattenAllOf document schema = .ok (.obj members) → Named document root members
  | nested {members : Members} : Met document root (.obj members) → Named document root members

/-- A property of steps that typing a document keeps: the basic steps have it, it goes from steps to
what is put together of them, and the records of the schemas that are met have it if their
properties do. -/
structure Walk (document : Document) (P : ∀ {α : Type}, Declaring α → Prop) : Prop where
  ofPure : ∀ {α : Type} (a : α), P (pure a : Declaring α)
  ofThrow : ∀ {α : Type} (e : SchemaError), P (throw e : Declaring α)
  bind : ∀ {α β : Type} {step : Declaring α} {next : α → Declaring β},
    P step → (∀ a, P (next a)) → P (step >>= next)
  claim : ∀ name, P (claim name)
  ofAlias : ∀ name type, P (emit (.alias name type))
  record : ∀ {room depth members properties}, Named document.schema document.root members →
    objectProperties? members = some properties →
    (∀ property ∈ properties, ∀ hint, P (typeAt document room depth property.2 hint)) →
    ∀ name, P (declareRecord (typeAt document room depth) name members properties)
  pointer : ∀ {typeOf fieldType reference},
    (∀ schema, target document.schema reference = .ok schema →
      ∀ name, P (declareAs document.schema typeOf fieldType name schema)) →
    P (pointerType document typeOf fieldType reference)

namespace Walk

variable {P : ∀ {α : Type}, Declaring α → Prop} (w : Walk document P)
include w

theorem lift_bind {x : Except SchemaError α} {f : α → Declaring β} (hf : ∀ a, x = .ok a → P (f a)) :
    P ((x : Declaring α) >>= f) := by
  cases x with
  | error e => exact w.ofThrow e
  | ok a => exact hf a rfl

theorem mapM {f : α → Declaring β} {items : List α} (h : ∀ a ∈ items, P (f a)) :
    P (items.mapM f) := by
  induction items with
  | nil => exact w.ofPure []
  | cons a items ih =>
      rw [List.mapM_cons]
      exact w.bind (h a List.mem_cons_self) fun _ =>
        w.bind (ih fun b hm => h b (List.mem_cons_of_mem _ hm)) fun _ => w.ofPure _

/-- Both ways in which a schema is typed on the way to a type: as what is nested one level deeper,
and as a property of a class. -/
def Types (document : Document) (P : ∀ {α : Type}, Declaring α → Prop) (typeOf : TypeOf)
    (room depth : Nat) (schema : Json) : Prop :=
  ∀ hint, P (typeOf schema hint) ∧ P (typeAt document room depth schema hint)

theorem declareAs
    (hnamed : ∀ members, flattenAllOf document.schema schema = .ok (.obj members) →
      Named document.schema document.root members)
    (h : ∀ inner ∈ declaredIn document.schema schema, Types document P typeOf room depth inner)
    (name : String) :
    P (declareAs document.schema typeOf (typeAt document room depth) name schema) := by
  refine w.lift_bind fun flat hflat => ?_
  have hdeclared := mem_declaredIn hflat
  split
  · rename_i members properties hobj hp
    rw [eq_of_obj? hobj] at hflat
    refine w.record (hnamed _ hflat) ?_ (fun property hm hint => ?_) name
    · rwa [hobj, Option.bind_some] at hp
    · exact (h _ (hdeclared.1 _ hp _ (List.mem_map_of_mem hm)) hint).2
  · rename_i hnone
    have hmem : flat ∈ declaredIn document.schema schema := by
      refine hdeclared.2 (Option.eq_none_iff_forall_not_mem.mpr fun properties hp => ?_)
      obtain ⟨members, hobj, -⟩ := Option.bind_eq_some_iff.mp hp
      exact hnone members properties hobj hp
    exact w.bind (h flat hmem name).1 fun type => w.ofAlias name type

omit w in
theorem nestedInArray_eq {members : Members} {item : Json} (h : members.get? "items" = some item)
    (hitem : ∀ items, item ≠ .arr items) : nestedInArray members = [item] := by
  unfold nestedInArray
  rw [h]
  cases item with
  | arr items => exact (hitem items rfl).elim
  | _ => rfl

theorem arrayType
    (h : ∀ inner ∈ nestedInArray members, Types document P typeOf room depth inner)
    (hint : String) : P (arrayType typeOf members hint) := by
  unfold Schema.arrayType
  split
  · rename_i items hitems
    rw [nestedInArray, hitems] at h
    exact w.bind (w.mapM fun item hm => (h _ (List.fst_mem_of_mem_zipIdx hm) _).1) fun _ =>
      w.ofPure _
  · rename_i item hitem hget
    rw [nestedInArray_eq hget fun items heq => hitem items heq] at h
    exact w.bind (h item List.mem_cons_self _).1 fun _ => w.ofPure _
  · exact w.ofPure _

theorem objectType (hnamed : Named document.schema document.root members)
    (h : ∀ inner ∈ nestedInObject members, Types document P typeOf room depth inner)
    (hint : String) : P (objectType typeOf (typeAt document room depth) members hint) := by
  unfold Schema.objectType
  unfold nestedInObject at h
  split
  · rename_i properties hp
    rw [hp] at h
    exact w.bind (w.claim hint) fun name => w.bind (w.record hnamed hp (fun property hm hint =>
      (h _ (List.mem_map_of_mem hm) hint).2) name) fun _ => w.ofPure _
  · rename_i hp
    rw [hp] at h
    split
    · rename_i schema hvalue
      rw [hvalue] at h
      exact w.bind (h schema List.mem_cons_self _).1 fun _ => w.ofPure _
    · exact w.ofPure _

theorem union {schemas : List Json}
    (h : ∀ inner ∈ schemas, Types document P typeOf room depth inner) (hint : String) :
    P (TypeExpr.oneOf <$> memberTypes typeOf schemas hint) := by
  rw [map_eq_pure_bind]
  exact w.bind (w.mapM fun schema hm => (h _ (List.fst_mem_of_mem_zipIdx hm) _).1) fun _ =>
    w.ofPure _

theorem typedSchema (hnamed : Named document.schema document.root members)
    (h : ∀ inner ∈ nestedInTyped members, Types document P typeOf room depth inner)
    (hint : String) : P (typedSchema typeOf (typeAt document room depth) members hint) := by
  unfold Schema.typedSchema
  unfold nestedInTyped at h
  split
  · rename_i types htypes
    rw [htypes] at h
    exact w.bind (w.mapM fun type hm => (h _ (List.mem_map_of_mem hm) hint).1) fun _ => w.ofPure _
  · rename_i type htype
    rw [htype] at h
    dsimp only at h
    split
    case h_6 => exact w.arrayType h hint
    case h_7 => exact w.objectType hnamed h hint
    all_goals exact w.ofPure _
  · -- no type is given, so the properties or the items tell
    rename_i hnotArr hnotStr
    split at h
    · exact (hnotArr _ ‹_›).elim
    · exact (hnotStr _ ‹_›).elim
    split
    · rw [if_pos ‹_›] at h
      exact w.objectType hnamed h hint
    · rw [if_neg ‹_›] at h
      split
      · rw [if_pos ‹_›] at h
        exact w.arrayType h hint
      · exact w.ofPure _

theorem schemaType (hmet : Met document.schema document.root schema)
    (h : ∀ inner, Met document.schema document.root inner →
      Types document P typeOf room depth inner) (hint : String) :
    P (schemaType document typeOf (typeAt document room depth) schema hint) := by
  have hnested : ∀ inner ∈ nested document.schema schema,
      Types document P typeOf room depth inner :=
    fun inner hm => h inner (.nested hmet hm)
  unfold Schema.schemaType
  unfold nested at hnested
  -- the cases are those of `nested`, which lists what each of them types
  split
  · exact w.ofPure _
  rename_i members hobj
  rw [hobj] at hnested
  dsimp only at hnested
  split
  · rename_i reference href
    exact w.pointer fun schema htarget name =>
      w.declareAs (fun members hflat => .pointer hmet href htarget hflat)
        (fun inner hm => h inner (.pointer hmet href htarget hm)) name
  rename_i hnone
  rw [hnone] at hnested
  dsimp only at hnested
  split
  · exact w.ofPure _
  · exact w.ofPure _
  · rename_i schemas hc he ha
    rw [hc, he, ha] at hnested
    exact w.union hnested hint
  · rename_i schemas hc he ha ho
    rw [hc, he, ha, ho] at hnested
    exact w.union hnested hint
  · rename_i part hc he ha ho hparts
    rw [hc, he, ha, ho, hparts] at hnested
    exact (hnested part List.mem_cons_self hint).1
  · rename_i parts hseveral hc he ha ho hparts
    rw [hc, he, ha, ho, hparts] at hnested
    refine w.lift_bind fun merged hm => ?_
    have hmem : merged ∈ nestedInParts document.schema parts := by
      unfold nestedInParts
      split
      · exact (hseveral _ rfl).elim
      · rw [hm]
        exact List.mem_singleton.mpr rfl
    exact (hnested merged hmem hint).1
  · rename_i hc he ha ho hparts
    rw [hc, he, ha, ho, hparts] at hnested
    exact w.typedSchema (.nested (eq_of_obj? hobj ▸ hmet)) hnested hint

/-- **Typing a schema that is met has what its steps have**, at every depth. -/
theorem typeAt (hmet : Met document.schema document.root schema) (room depth : Nat)
    (hint : String) : P (typeAt document room depth schema hint) := by
  induction room using Nat.strongRecOn generalizing depth schema hint with
  | ind room ih =>
      cases room with
      | zero => exact w.ofThrow _
      | succ room =>
          rw [typeAt_succ]
          refine w.schemaType hmet (fun inner hinner hint => ⟨?_, ?_⟩) hint
          · exact ih room (by omega) hinner (depth + 1) hint
          · exact ih (room - 1) (by omega) hinner (depth + 2) hint

/-- So has declaring the root. -/
theorem root {pointer? : Option String}
    (hroot : rootSchema document = .ok (schema, pointer?)) :
    P (Schema.declareAs document.schema (Schema.typeAt document (document.maxDepth + 1) 0)
      (Schema.typeAt document document.maxDepth 1) document.root schema) := by
  have hroot : rootSchema ⟨document.schema, document.root, 0⟩ = .ok (schema, pointer?) := hroot
  refine w.declareAs (fun members hflat => .root hroot hflat) (fun inner hm hint => ?_) _
  exact ⟨w.typeAt (.root hroot hm) _ _ hint, w.typeAt (.root hroot hm) _ _ hint⟩

end Walk

/-! ## Records and their schemas -/

/-- On the way to a scope, a record was declared for an object schema with properties. -/
def RecordedFrom (document : Document) (scope : Scope) (members : Members) (d : Declaration) :
    Prop :=
  ∃ properties room depth before after others, objectProperties? members = some properties ∧
    declareRecord (typeAt document room depth) d.name members properties before = .ok ((), after) ∧
    after.declarations = others ++ [d] ∧ after.Grows scope

theorem RecordedFrom.mono {before after : Scope} {d : Declaration}
    (h : RecordedFrom document before members d) (hg : before.Grows after) :
    RecordedFrom document after members d := by
  obtain ⟨properties, room, depth, start, last, others, hp, hrun, hlast, hgrows⟩ := h
  exact ⟨properties, room, depth, start, last, others, hp, hrun, hlast, hgrows.trans hg⟩

/-- A record that was declared for a schema has a field for each property in turn. -/
theorem RecordedFrom.fields {scope : Scope} {d : Declaration}
    (h : RecordedFrom document scope members d) (hp : objectProperties? members = some properties) :
    d ∈ scope.declarations ∧ ∃ fields, d = .record d.name (description? (.obj members)) fields ∧
      List.Forall₂ (fun property field => ∃ type, TypedAs document scope property.2 type ∧
        field = fieldOf (requiredNames members) property.1 property.2 type) properties fields := by
  obtain ⟨properties', room, depth, before, after, others, hp', hrun, hlast, hgrows⟩ := h
  obtain rfl := Option.some.inj (hp'.symm.trans hp)
  obtain ⟨fields, between, hfields, hemit⟩ := run_bind_eq_ok hrun
  have hemitted := compositional_growing.emit _ hemit
  obtain ⟨-, rfl⟩ := Prod.mk.inj (Except.ok.inj hemit)
  obtain ⟨-, heq⟩ := List.append_inj' hlast rfl
  refine ⟨hgrows.declarations.subset ?_, fields, (List.singleton_inj.mp heq).symm,
    mapM_typedAs (f := Prod.snd) hfields (hemitted.trans hgrows)⟩
  rw [hlast]
  exact List.mem_append_right _ List.mem_cons_self

/-- Each record so far was declared for a schema that was met. -/
def Recorded (document : Document) (scope : Scope) : Prop :=
  ∀ name doc fields, .record name doc fields ∈ scope.declarations →
    ∃ members, Named document.schema document.root members ∧
      RecordedFrom document scope members (.record name doc fields)

theorem Recorded.mono {before after : Scope} (h : Recorded document before)
    (hg : before.Grows after) (hd : after.declarations = before.declarations) :
    Recorded document after := by
  intro name doc fields hm
  obtain ⟨members, hnamed, hfrom⟩ := h name doc fields (hd ▸ hm)
  exact ⟨members, hnamed, hfrom.mono hg⟩

/-- A step that adds only records for schemas that were met. -/
structure Records (document : Document) (step : Declaring α) : Prop where
  run : ∀ {before a after}, Recorded document before → step before = .ok (a, after) →
    before.Grows after ∧ Recorded document after

theorem records_pure (a : α) : Records document (pure a : Declaring α) := by
  refine ⟨fun hb h => ?_⟩
  obtain ⟨-, rfl⟩ := Prod.mk.inj (Except.ok.inj h)
  exact ⟨.refl _, hb⟩

theorem Records.bind {x : Declaring α} {f : α → Declaring β} (hx : Records document x)
    (hf : ∀ a, Records document (f a)) : Records document (x >>= f) := by
  refine ⟨fun hb h => ?_⟩
  obtain ⟨a, between, hx', hf'⟩ := run_bind_eq_ok h
  obtain ⟨hgrows, hbetween⟩ := hx.run hb hx'
  obtain ⟨hgrows', hafter⟩ := (hf a).run hbetween hf'
  exact ⟨hgrows.trans hgrows', hafter⟩

theorem Records.mapM {f : α → Declaring β} {items : List α}
    (h : ∀ a ∈ items, Records document (f a)) : Records document (items.mapM f) := by
  induction items with
  | nil => exact records_pure []
  | cons a items ih =>
      rw [List.mapM_cons]
      exact (h a List.mem_cons_self).bind fun _ =>
        (ih fun b hm => h b (List.mem_cons_of_mem _ hm)).bind fun _ => records_pure _

/-- The record for a schema is the last one, behind those for its properties. -/
theorem records_declareRecord (hnamed : Named document.schema document.root members)
    (hp : objectProperties? members = some properties)
    (h : ∀ property ∈ properties, ∀ hint,
      Records document (typeAt document room depth property.2 hint)) (name : String) :
    Records document (declareRecord (typeAt document room depth) name members properties) := by
  refine ⟨fun {before _ after} hb hrun => ?_⟩
  obtain ⟨fields, between, hfields, hemit⟩ := run_bind_eq_ok hrun
  have hproperties : Records document (properties.mapM fun property => do
      let type ← typeAt document room depth property.2 (nestedName name property.1)
      return fieldOf (requiredNames members) property.1 property.2 type) :=
    .mapM fun property hm => (h property hm _).bind fun _ => records_pure _
  obtain ⟨hgrows, hbetween⟩ := hproperties.run hb hfields
  have hemitted := compositional_growing.emit _ hemit
  obtain ⟨-, rfl⟩ := Prod.mk.inj (Except.ok.inj hemit)
  refine ⟨hgrows.trans hemitted, fun other doc others hm => ?_⟩
  -- the new record is made from these properties, the older ones are as before
  rcases List.mem_append.mp hm with hm | hm
  · obtain ⟨members, hnamed, hfrom⟩ := hbetween other doc others hm
    exact ⟨members, hnamed, hfrom.mono hemitted⟩
  · obtain ⟨rfl, -, -⟩ := Declaration.record.inj (List.mem_singleton.mp hm)
    rw [List.mem_singleton.mp hm]
    exact ⟨members, hnamed, properties, room, depth, before, _, between.declarations, hp, hrun, rfl,
      .refl _⟩

theorem walk_records (document : Document) : Walk document (Records document) where
  ofPure := records_pure
  ofThrow e := ⟨fun _ h => nomatch h⟩
  bind hx hf := hx.bind hf
  claim name := ⟨fun hb h => by
    have hgrows := compositional_growing.claim name h
    obtain ⟨-, rfl⟩ := Prod.mk.inj (Except.ok.inj h)
    exact ⟨hgrows, hb.mono hgrows rfl⟩⟩
  ofAlias name type := ⟨fun hb h => by
    have hgrows := compositional_growing.emit _ h
    obtain ⟨-, rfl⟩ := Prod.mk.inj (Except.ok.inj h)
    refine ⟨hgrows, fun name doc fields hm => ?_⟩
    rcases List.mem_append.mp hm with hm | hm
    · obtain ⟨members, hnamed, hfrom⟩ := hb name doc fields hm
      exact ⟨members, hnamed, hfrom.mono hgrows⟩
    · exact nomatch List.mem_singleton.mp hm⟩
  record := records_declareRecord
  pointer h := ⟨fun hb hrun => by
    obtain ⟨-, -, rfl⟩ | ⟨name, -, -, -, rfl⟩ | ⟨schema, name, -, hnew, -, htarget, hd⟩ :=
      pointerType_cases hrun
    · exact ⟨.refl _, hb⟩
    · exact ⟨.refl _, hb⟩
    · have hnaming := @Scope.grows_naming _ _ name hnew
      obtain ⟨hgrows, hafter⟩ := (h schema htarget name).run (hb.mono hnaming rfl) hd
      exact ⟨hnaming.trans hgrows, hafter⟩⟩

/-- **Each record that is declared in the end was declared for an object schema that was met.** -/
theorem recorded_finalScope {final : Scope} (h : finalScope document = .ok final) :
    Recorded document final := by
  obtain ⟨⟨schema, pointer?⟩, hroot, h⟩ := bind_eq_ok_iff.mp h
  obtain ⟨⟨_, last⟩, hd, h⟩ := bind_eq_ok_iff.mp h
  obtain rfl := pure_eq_ok_iff.mp h
  exact (((walk_records document).root hroot).run (fun _ _ _ hm =>
    absurd hm List.not_mem_nil) hd).2

end StubGen.Schema
