import Mathlib.Data.List.Forall2
import StubGen.Proofs.Schema.Closed
import StubGen.Proofs.Schema.Composition

/-!
# What a declaration is made from

A pointer is named the first time it is met, and from then on it stands for that name. While its
target is being declared the name is open; when that is done, the last declaration is one made
from the target. So at any moment a pointer that has a name is open or has a declaration made from
what it leads to in the document: `Backed`. In the end no pointer is open any more, which is the
main result, `origin_of_named`.
-/

namespace StubGen.Schema

open Result

variable {α β : Type} {document : Document} {typeOf fieldType : TypeOf} {before after scope : Scope}

/-! ## Scopes grow -/

/-- In the later scope the pointers have the names that they had, and what was declared still
comes first. -/
structure Scope.Grows (before after : Scope) : Prop where
  pointers : ∀ {reference name}, before.pointers.lookup reference = some name →
    after.pointers.lookup reference = some name
  declarations : before.declarations <+: after.declarations

theorem Scope.Grows.refl (scope : Scope) : scope.Grows scope where
  pointers h := h
  declarations := List.prefix_refl _

theorem Scope.Grows.trans {between : Scope} (h : before.Grows between)
    (h' : between.Grows after) : before.Grows after where
  pointers hn := h'.pointers (h.pointers hn)
  declarations := h.declarations.trans h'.declarations

theorem Scope.grows_naming {reference name : String}
    (h : scope.pointers.lookup reference = none) : scope.Grows (scope.naming reference name) where
  pointers {other given} hother := by
    have hne : other ≠ reference := by
      rintro rfl
      exact nomatch h.symm.trans hother
    rw [naming, List.lookup_cons, beq_eq_false_iff_ne.mpr hne]
    exact hother
  declarations := List.prefix_refl _

/-- A step that only adds to a scope. -/
def Growing (step : Declaring α) : Prop :=
  ∀ {before a after}, step before = .ok (a, after) → before.Grows after

theorem compositional_growing : Compositional Growing where
  ofPure a := fun {before b after} h => by
    obtain ⟨-, rfl⟩ := Prod.mk.inj (Except.ok.inj h)
    exact .refl _
  ofThrow e := fun h => nomatch h
  bind hx hf := fun {before b after} h => by
    obtain ⟨a, between, hx', hf'⟩ := run_bind_eq_ok h
    exact (hx hx').trans (hf a hf')
  claim name := fun {before a after} h => by
    obtain ⟨-, rfl⟩ := Prod.mk.inj (Except.ok.inj h)
    exact ⟨fun hn => hn, List.prefix_refl _⟩
  emit d := fun {before a after} h => by
    obtain ⟨-, rfl⟩ := Prod.mk.inj (Except.ok.inj h)
    exact ⟨fun hn => hn, List.prefix_append _ _⟩

/-- The target of a pointer that has no name is declared in a scope with the name. -/
theorem pointerType_cases {reference : String} {type : TypeExpr}
    (h : pointerType document typeOf fieldType reference before = .ok (type, after)) :
    (reference = "#" ∧ type = .ref document.root ∧ after = before) ∨
    (∃ name, reference ≠ "#" ∧ before.pointers.lookup reference = some name ∧
      type = .ref name ∧ after = before) ∨
    ∃ schema name, reference ≠ "#" ∧ before.pointers.lookup reference = none ∧ type = .ref name ∧
      target document.schema reference = .ok schema ∧
      declareAs document.schema typeOf fieldType name schema (before.naming reference name) =
        .ok ((), after) := by
  rw [run_pointerType] at h
  split at h
  · obtain ⟨rfl, rfl⟩ := Prod.mk.inj (Except.ok.inj h)
    exact .inl ⟨‹_›, rfl, rfl⟩
  split at h
  · obtain ⟨rfl, rfl⟩ := Prod.mk.inj (Except.ok.inj h)
    exact .inr (.inl ⟨_, ‹_›, ‹_›, rfl, rfl⟩)
  obtain ⟨key, hkey, h⟩ := bind_eq_ok_iff.mp h
  obtain ⟨schema, hl, h⟩ := bind_eq_ok_iff.mp h
  obtain ⟨⟨_, last⟩, hd, h⟩ := bind_eq_ok_iff.mp h
  obtain ⟨rfl, rfl⟩ := Prod.mk.inj (pure_eq_ok_iff.mp h)
  exact .inr (.inr ⟨schema, _, ‹_›, ‹_›, rfl, bind_eq_ok_iff.mpr ⟨key, hkey, hl⟩, hd⟩)

theorem growing_pointerType (ht : ∀ schema hint, Growing (typeOf schema hint))
    (hf : ∀ schema hint, Growing (fieldType schema hint)) (reference : String) :
    Growing (pointerType document typeOf fieldType reference) := by
  intro before type after h
  obtain ⟨-, -, rfl⟩ | ⟨name, -, -, -, rfl⟩ | ⟨schema, name, -, hnew, -, -, hd⟩ :=
    pointerType_cases h
  · exact .refl _
  · exact .refl _
  · exact (Scope.grows_naming hnew).trans
      (compositional_growing.declareAs ht hf document.schema name schema hd)

theorem growing_typeAt (document : Document) (room depth : Nat) (schema : Json) (hint : String) :
    Growing (typeAt document room depth schema hint) :=
  compositional_growing.typeAt growing_pointerType room depth schema hint

/-! ## Declarations made from a schema -/

/-- A declaration is what declaring a schema under its name came to, at some depth on the way to a
scope. -/
def MadeFrom (document : Document) (scope : Scope) (schema : Json) (d : Declaration) : Prop :=
  ∃ room depth before after others,
    declareAs document.schema (typeAt document room depth) (typeAt document (room - 1) (depth + 1))
      d.name schema before = .ok ((), after) ∧
    after.declarations = others ++ [d] ∧ after.Grows scope

theorem MadeFrom.mono {schema : Json} {d : Declaration} (h : MadeFrom document before schema d)
    (hg : before.Grows after) : MadeFrom document after schema d := by
  obtain ⟨room, depth, start, last, others, hrun, hlast, hgrows⟩ := h
  exact ⟨room, depth, start, last, others, hrun, hlast, hgrows.trans hg⟩

/-- What has been made is declared. -/
theorem MadeFrom.mem {schema : Json} {d : Declaration} (h : MadeFrom document scope schema d) :
    d ∈ scope.declarations := by
  obtain ⟨room, depth, start, last, others, -, hlast, hgrows⟩ := h
  exact hgrows.declarations.subset (by simp [hlast])

/-- A step whose last declaration is one of a name. -/
def EndsWith (name : String) (step : Declaring Unit) : Prop :=
  ∀ {before after}, step before = .ok ((), after) →
    ∃ others d, after.declarations = others ++ [d] ∧ d.name = name

theorem endsWith_emit (d : Declaration) : EndsWith d.name (emit d) := by
  intro before after h
  obtain ⟨-, rfl⟩ := Prod.mk.inj (Except.ok.inj h)
  exact ⟨_, d, rfl, rfl⟩

theorem EndsWith.bind {name : String} {x : Declaring α} {f : α → Declaring Unit}
    (h : ∀ a, EndsWith name (f a)) : EndsWith name (x >>= f) := by
  intro before last hrun
  obtain ⟨a, between, -, hrun⟩ := run_bind_eq_ok hrun
  exact h a hrun

theorem endsWith_declareAs (typeOf fieldType : TypeOf) (document : Json) (name : String)
    (schema : Json) : EndsWith name (declareAs document typeOf fieldType name schema) := by
  refine EndsWith.bind fun flat => ?_
  split
  · exact EndsWith.bind fun fields => endsWith_emit (.record name _ fields)
  · exact EndsWith.bind fun type => endsWith_emit (.alias name type)

/-- Each pointer that has a name is open, or has a declaration made from its target under that
name. -/
def Backed (document : Document) (open_ : List (String × String)) (scope : Scope) : Prop :=
  ∀ reference name, scope.pointers.lookup reference = some name →
    (reference, name) ∈ open_ ∨ ∃ schema d, target document.schema reference = .ok schema ∧
      d.name = name ∧ MadeFrom document scope schema d

theorem Backed.grow {open_ : List (String × String)} (h : Backed document open_ before)
    (hg : before.Grows after) (hp : after.pointers = before.pointers) :
    Backed document open_ after := by
  intro reference name hn
  rcases h reference name (hp ▸ hn) with hopen | ⟨schema, d, ht, hname, hmade⟩
  · exact .inl hopen
  · exact .inr ⟨schema, d, ht, hname, hmade.mono hg⟩

/-- The last declaration closes the pointer that it was made for. -/
theorem Backed.close {open_ : List (String × String)} {reference : String} {schema : Json}
    {d : Declaration} (h : Backed document ((reference, d.name) :: open_) scope)
    (ht : target document.schema reference = .ok schema)
    (hmade : MadeFrom document scope schema d) : Backed document open_ scope := by
  intro other name hn
  rcases h other name hn with hopen | hbacked
  · rcases List.mem_cons.mp hopen with heq | hopen
    · obtain ⟨rfl, rfl⟩ := Prod.mk.inj heq
      exact .inr ⟨schema, d, ht, rfl, hmade⟩
    · exact .inl hopen
  · exact .inr hbacked

/-- A step that leaves no pointer open that was not open before. -/
structure Backs (document : Document) (step : Declaring α) : Prop where
  run : ∀ {open_ before a after}, Backed document open_ before → step before = .ok (a, after) →
    Backed document open_ after

theorem compositional_backs : Compositional (Backs document) where
  ofPure a := ⟨fun hb h => by
    obtain ⟨-, rfl⟩ := Prod.mk.inj (Except.ok.inj h)
    exact hb⟩
  ofThrow e := ⟨fun _ h => nomatch h⟩
  bind hx hf := ⟨fun hb h => by
    obtain ⟨a, between, hx', hf'⟩ := run_bind_eq_ok h
    exact (hf a).run (hx.run hb hx') hf'⟩
  claim name := ⟨fun hb h => by
    have hgrows := compositional_growing.claim name h
    obtain ⟨-, rfl⟩ := Prod.mk.inj (Except.ok.inj h)
    exact hb.grow hgrows rfl⟩
  emit d := ⟨fun hb h => by
    have hgrows := compositional_growing.emit d h
    obtain ⟨-, rfl⟩ := Prod.mk.inj (Except.ok.inj h)
    exact hb.grow hgrows rfl⟩

/-- A new pointer is open while its target is being declared. -/
theorem Backed.naming {open_ : List (String × String)} {reference : String}
    (h : Backed document open_ scope) (hnew : scope.pointers.lookup reference = none)
    (name : String) :
    Backed document ((reference, name) :: open_) (scope.naming reference name) := by
  intro other given hn
  rw [Scope.naming, List.lookup_cons] at hn
  split at hn
  · rename_i heq
    rw [beq_iff_eq.mp heq, Option.some.inj hn]
    exact .inl List.mem_cons_self
  · rcases h other given hn with hopen | ⟨schema, d, ht, hname, hmade⟩
    · exact .inl (List.mem_cons_of_mem _ hopen)
    · exact .inr ⟨schema, d, ht, hname, hmade.mono (Scope.grows_naming hnew)⟩

theorem backs_pointerType {room depth : Nat}
    (ht : ∀ schema hint, Backs document (typeAt document room depth schema hint))
    (hf : ∀ schema hint, Backs document (typeAt document (room - 1) (depth + 1) schema hint))
    (reference : String) :
    Backs document (pointerType document (typeAt document room depth)
      (typeAt document (room - 1) (depth + 1)) reference) := by
  refine ⟨fun {open_ before type after} hb h => ?_⟩
  obtain ⟨-, -, rfl⟩ | ⟨name, -, -, -, rfl⟩ | ⟨schema, name, -, hnew, -, htarget, hd⟩ :=
    pointerType_cases h
  · exact hb
  · exact hb
  · have hafter := (compositional_backs.declareAs ht hf document.schema name schema).run
      (hb.naming hnew name) hd
    obtain ⟨others, d, hlast, rfl⟩ := endsWith_declareAs _ _ _ _ _ hd
    exact hafter.close htarget ⟨room, depth, _, after, others, hd, hlast, .refl after⟩

theorem backs_typeAt (room depth : Nat) (schema : Json) (hint : String) :
    Backs document (typeAt document room depth schema hint) :=
  compositional_backs.typeAt backs_pointerType room depth schema hint

/-! ## What the types in a declaration come from -/

/-- On the way to a scope, a schema was typed as this. -/
def TypedAs (document : Document) (scope : Scope) (schema : Json) (type : TypeExpr) : Prop :=
  ∃ room depth hint before after,
    typeAt document room depth schema hint before = .ok (type, after) ∧ after.Grows scope

theorem mapM_typedAs {room depth : Nat} {f : α → Json} {hint : α → String}
    {make : α → TypeExpr → β} {items : List α} {results : List β} {before after : Scope}
    (h : (items.mapM fun a => do
      let type ← typeAt document room depth (f a) (hint a)
      return make a type) before = .ok (results, after)) (hg : after.Grows scope) :
    List.Forall₂ (fun a b => ∃ type, TypedAs document scope (f a) type ∧ b = make a type)
      items results := by
  induction items generalizing results before with
  | nil =>
      obtain ⟨rfl, -⟩ := Prod.mk.inj (Except.ok.inj h)
      exact .nil
  | cons a items ih =>
      rw [List.mapM_cons] at h
      obtain ⟨first, between, hfirst, h⟩ := run_bind_eq_ok h
      obtain ⟨rest, last, hrest, h⟩ := run_bind_eq_ok h
      obtain ⟨rfl, rfl⟩ := Prod.mk.inj (Except.ok.inj h)
      obtain ⟨type, typed, htype, hmake⟩ := run_bind_eq_ok hfirst
      obtain ⟨rfl, rfl⟩ := Prod.mk.inj (Except.ok.inj hmake)
      -- what is typed stays named in all that comes later
      have hgrows : typed.Grows last := compositional_growing.mapM (fun a =>
        compositional_growing.bind (growing_typeAt document room depth (f a) (hint a)) fun _ =>
          compositional_growing.ofPure _) items hrest
      exact .cons ⟨type, ⟨room, depth, hint a, before, typed, htype, hgrows.trans hg⟩, rfl⟩
        (ih hrest)

/-- A flattened schema is declared as a record if it has properties, else as an alias. -/
theorem declareAs_cases {schema : Json} {name : String}
    (h : declareAs document.schema typeOf fieldType name schema before = .ok ((), after)) :
    ∃ flat, flattenAllOf document.schema schema = .ok flat ∧
      ((∃ members properties, flat = .obj members ∧ objectProperties? members = some properties ∧
        declareRecord fieldType name members properties before = .ok ((), after)) ∨
      (flat.obj?.bind objectProperties? = none ∧
        (typeOf flat name >>= fun type => emit (.alias name type)) before = .ok ((), after))) := by
  obtain ⟨flat, between, hflat, h⟩ := run_bind_eq_ok h
  obtain ⟨found, hfound, hlift⟩ := bind_eq_ok_iff.mp hflat
  obtain ⟨rfl, rfl⟩ := Prod.mk.inj (Except.ok.inj hlift)
  refine ⟨found, hfound, ?_⟩
  cases found with
  | obj members =>
      cases hp : objectProperties? members with
      | none => exact .inr ⟨hp, by simpa [Json.obj?, hp] using h⟩
      | some properties =>
          exact .inl ⟨members, properties, rfl, hp, by simpa [Json.obj?, hp] using h⟩
  | _ => exact .inr ⟨rfl, h⟩

/-- A declaration made from a schema with properties is a record with a field for each of them in
turn. One made from any other schema is an alias. -/
theorem MadeFrom.cases {schema : Json} {d : Declaration} (h : MadeFrom document scope schema d) :
    ∃ flat, flattenAllOf document.schema schema = .ok flat ∧
      ((∃ members properties doc fields, flat = .obj members ∧
        objectProperties? members = some properties ∧ d = .record d.name doc fields ∧
        List.Forall₂ (fun property field => ∃ type, TypedAs document scope property.2 type ∧
          field = fieldOf (requiredNames members) property.1 property.2 type) properties fields) ∨
      (flat.obj?.bind objectProperties? = none ∧
        ∃ type, d = .alias d.name type ∧ TypedAs document scope flat type)) := by
  obtain ⟨room, depth, before, after, others, hrun, hlast, hgrows⟩ := h
  obtain ⟨flat, hflat, ⟨members, properties, hobj, hp, hrun⟩ | ⟨hnone, hrun⟩⟩ :=
    declareAs_cases hrun
  -- either way the declaration is the last one that is emitted
  · refine ⟨flat, hflat, .inl ?_⟩
    obtain ⟨made, between, hfields, hemit⟩ := run_bind_eq_ok hrun
    have hemitted := compositional_growing.emit _ hemit
    obtain ⟨-, rfl⟩ := Prod.mk.inj (Except.ok.inj hemit)
    obtain ⟨-, heq⟩ := List.append_inj' hlast rfl
    exact ⟨members, properties, description? (.obj members), made, hobj, hp,
      (List.singleton_inj.mp heq).symm,
      mapM_typedAs (f := Prod.snd) hfields (hemitted.trans hgrows)⟩
  · refine ⟨flat, hflat, .inr ⟨hnone, ?_⟩⟩
    obtain ⟨type, between, htype, hemit⟩ := run_bind_eq_ok hrun
    have hemitted := compositional_growing.emit _ hemit
    obtain ⟨-, rfl⟩ := Prod.mk.inj (Except.ok.inj hemit)
    obtain ⟨-, heq⟩ := List.append_inj' hlast rfl
    exact ⟨type, (List.singleton_inj.mp heq).symm,
      room, depth, d.name, before, between, htype, hemitted.trans hgrows⟩

/-- A record is made field by field from the properties of the flattened schema. -/
theorem MadeFrom.record {schema : Json} {name : String} {doc : Option String} {fields : List Field}
    (h : MadeFrom document scope schema (.record name doc fields)) :
    ∃ members properties, flattenAllOf document.schema schema = .ok (.obj members) ∧
      objectProperties? members = some properties ∧
      List.Forall₂ (fun property field => ∃ type, TypedAs document scope property.2 type ∧
        field = fieldOf (requiredNames members) property.1 property.2 type) properties fields := by
  obtain ⟨flat, hflat, ⟨members, properties, doc, made, rfl, hp, heq, hfields⟩ | ⟨-, _, heq, -⟩⟩ :=
    h.cases
  · obtain ⟨-, -, rfl⟩ := Declaration.record.inj heq
    exact ⟨members, properties, hflat, hp, hfields⟩
  · exact nomatch heq

/-- An alias is made from the whole of the flattened schema. -/
theorem MadeFrom.alias {schema : Json} {name : String} {type : TypeExpr}
    (h : MadeFrom document scope schema (.alias name type)) :
    ∃ flat, flattenAllOf document.schema schema = .ok flat ∧ TypedAs document scope flat type := by
  obtain ⟨flat, hflat, ⟨_, _, _, _, -, -, heq, -⟩ | ⟨-, type, heq, htyped⟩⟩ := h.cases
  · exact nomatch heq
  · obtain ⟨-, rfl⟩ := Declaration.alias.inj heq
    exact ⟨flat, hflat, htyped⟩

/-! ## Whole documents -/

/-- What has been declared when a document is done. -/
def finalScope (document : Document) : Except SchemaError Scope := do
  let (schema, pointer?) ← rootSchema document
  let ((), scope) ← declareAs document.schema (typeAt document (document.maxDepth + 1) 0)
    (typeAt document document.maxDepth 1) document.root schema
    { taken := [document.root]
      pointers := (pointer?.map fun pointer => (pointer, document.root)).toList
      declarations := [] }
  return scope

/-- What there is in the end is there when the root has been declared. -/
theorem exists_of_finalScope {final : Scope} (h : finalScope document = .ok final) :
    ∃ schema pointer?, rootSchema document = .ok (schema, pointer?) ∧
      declareAs document.schema (typeAt document (document.maxDepth + 1) 0)
          (typeAt document document.maxDepth 1) document.root schema
        ⟨[document.root], (pointer?.map fun pointer => (pointer, document.root)).toList, []⟩ =
          .ok ((), final) := by
  unfold finalScope at h
  obtain ⟨⟨schema, pointer?⟩, hroot, h⟩ := bind_eq_ok_iff.mp h
  obtain ⟨⟨_, after⟩, hrun, h⟩ := bind_eq_ok_iff.mp h
  obtain rfl := pure_eq_ok_iff.mp h
  exact ⟨schema, pointer?, hroot, hrun⟩

theorem declarations_eq (document : Document) :
    declarations document = Scope.declarations <$> finalScope document := by
  unfold declarations finalScope
  cases rootSchema document with
  | error e => rfl
  | ok found =>
      simp only [ok_bind, map_bind, map_pure]
      rfl

/-- The schema that a reference stands for in a document with a root. The root of a document that
is only a pointer to the definition named as the root is that definition. -/
def denoted (document : Json) (root reference : String) : Except SchemaError Json :=
  if reference = "#" then Prod.fst <$> rootSchema ⟨document, root, 0⟩
  else target document reference

/-- The name that a reference has in a scope. -/
def Scope.nameOf? (scope : Scope) (root reference : String) : Option String :=
  if reference = "#" then some root else scope.pointers.lookup reference

theorem nameOf?_mono {root reference name : String} (hg : before.Grows after)
    (h : before.nameOf? root reference = some name) : after.nameOf? root reference = some name := by
  unfold Scope.nameOf? at h ⊢
  split
  · rwa [if_pos ‹_›] at h
  · rw [if_neg ‹_›] at h
    exact hg.pointers h

/-- A reference is typed as the name that it has from then on. -/
theorem nameOf?_of_typeAt {room depth : Nat} {schema : Json} {hint reference : String}
    {type : TypeExpr} (h : typeAt document room depth schema hint before = .ok (type, after))
    (hr : schema.getStr? "$ref" = some reference) :
    ∃ name, type = .ref name ∧ after.nameOf? document.root reference = some name := by
  cases room with
  | zero => exact nomatch h
  | succ room =>
      rw [typeAt_succ, schemaType_pointer hr] at h
      unfold Scope.nameOf?
      obtain ⟨rfl, rfl, -⟩ | ⟨name, hself, hn, rfl, rfl⟩ | ⟨next, name, hself, -, rfl, -, hd⟩ :=
        pointerType_cases h
      · exact ⟨document.root, rfl, if_pos rfl⟩
      · refine ⟨name, rfl, ?_⟩
        rw [if_neg hself]
        exact hn
      · have hgrows := compositional_growing.declareAs (growing_typeAt document room (depth + 1))
          (growing_typeAt document (room - 1) (depth + 2)) document.schema name next hd
        refine ⟨name, rfl, ?_⟩
        rw [if_neg hself]
        exact hgrows.pointers List.lookup_cons_self

/-- The pointer to the root is open until the root is declared. -/
theorem backed_start (document : Document) (pointer? : Option String) (taken : List String) :
    Backed document (pointer?.map fun pointer => (pointer, document.root)).toList
      ⟨taken, (pointer?.map fun pointer => (pointer, document.root)).toList, []⟩ := by
  intro reference name hn
  obtain ⟨front, behind, heq, -⟩ := List.lookup_eq_some_iff.mp hn
  dsimp only at heq
  rw [heq]
  exact .inl (List.mem_append_right _ List.mem_cons_self)

theorem target_of_rootSchema {schema : Json} {reference : String}
    (h : rootSchema document = .ok (schema, some reference)) :
    target document.schema reference = .ok schema := by
  unfold rootSchema at h
  split at h
  · exact nomatch h
  split at h
  · exact nomatch h
  split at h
  · rename_i given _ _ key hkey _
    obtain ⟨found, hl, h⟩ := bind_eq_ok_iff.mp h
    obtain ⟨rfl, heq⟩ := Prod.mk.inj (pure_eq_ok_iff.mp h)
    have hrequire : requireKey given = .ok key := by simp [requireKey, hkey]
    rw [← Option.some.inj heq]
    exact bind_eq_ok_iff.mpr ⟨key, hrequire, hl⟩
  · exact nomatch h

/-- **Each declaration that a reference is named by is made from what the reference stands for in
the document.** -/
theorem origin_of_named {final : Scope} {reference name : String}
    (h : finalScope document = .ok final)
    (hn : final.nameOf? document.root reference = some name) :
    ∃ schema d, denoted document.schema document.root reference = .ok schema ∧ d.name = name ∧
      MadeFrom document final schema d := by
  obtain ⟨⟨schema, pointer?⟩, hroot, h⟩ := bind_eq_ok_iff.mp h
  obtain ⟨⟨_, last⟩, hd, h⟩ := bind_eq_ok_iff.mp h
  obtain rfl := pure_eq_ok_iff.mp h
  obtain ⟨others, d, hlast, hname⟩ := endsWith_declareAs _ _ _ _ _ hd
  have hmade : MadeFrom document last schema d :=
    ⟨document.maxDepth + 1, 0, _, last, others, hname ▸ hd, hlast, .refl last⟩
  unfold denoted
  split
  · rw [Scope.nameOf?, if_pos ‹_›] at hn
    have hfirst : Prod.fst <$> rootSchema ⟨document.schema, document.root, 0⟩ = .ok schema :=
      map_eq_ok_iff.mpr ⟨(schema, pointer?), hroot, rfl⟩
    exact ⟨schema, d, hfirst, hname.trans (Option.some.inj hn), hmade⟩
  · rw [Scope.nameOf?, if_neg ‹_›] at hn
    have hbacked := (compositional_backs.declareAs (backs_typeAt (document.maxDepth + 1) 0)
      (backs_typeAt document.maxDepth 1) document.schema document.root schema).run
        (backed_start _ _ _) hd
    -- a name that is left open by all declarations is that of the root
    rcases hbacked reference name hn with hopen | ⟨schema', d', ht, hname', hmade'⟩
    · obtain ⟨pointer, rfl, heq⟩ : ∃ pointer, pointer? = some pointer ∧
          (pointer, document.root) = (reference, name) := by
        cases pointer? with
        | none => simp at hopen
        | some pointer => exact ⟨pointer, rfl, (List.mem_singleton.mp hopen).symm⟩
      obtain ⟨rfl, rfl⟩ := Prod.mk.inj heq
      exact ⟨schema, d, target_of_rootSchema hroot, hname, hmade⟩
    · exact ⟨schema', d', ht, hname', hmade'⟩

end StubGen.Schema
