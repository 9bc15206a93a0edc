import StubGen.Proofs.Schema.Nesting
import StubGen.Proofs.Schema.Origins

/-!
# Names that are taken

A name that is wanted for a nested object is taken afterwards, whether the object got it or another
one had it before, and a name that is taken stays taken. So a step is known by the names that it
makes sure of, and steps one after another make sure of what each of them does (`Takes.bind`). In
the end every name that is taken is declared: `taken_finalScope`.
-/

namespace StubGen.Schema

open Result

variable {α β γ : Type} {document : Document} {typeOf fieldType : TypeOf} {before after : Scope}
  {names more : List String}

/-- A step that makes sure of some names: they are taken afterwards, and so is what was taken
before. -/
structure Takes (names : List String) (step : Declaring α) : Prop where
  run : ∀ {before a after}, step before = .ok (a, after) →
    before.taken ⊆ after.taken ∧ names ⊆ after.taken

theorem Takes.mono {step : Declaring α} (h : Takes names step) (hsub : more ⊆ names) :
    Takes more step :=
  ⟨fun hrun => ⟨(h.run hrun).1, List.Subset.trans hsub (h.run hrun).2⟩⟩

theorem takes_pure (a : α) : Takes [] (pure a : Declaring α) := by
  refine ⟨fun hrun => ?_⟩
  obtain ⟨-, rfl⟩ := Prod.mk.inj (Except.ok.inj hrun)
  exact ⟨fun _ hm => hm, List.nil_subset _⟩

theorem takes_throw (e : SchemaError) : Takes names (throw e : Declaring α) :=
  ⟨fun hrun => nomatch hrun⟩

/-- One step after another makes sure of what both do. -/
theorem Takes.bind {x : Declaring α} {f : α → Declaring β} (hx : Takes names x)
    (hf : ∀ a, Takes more (f a)) : Takes (names ++ more) (x >>= f) := by
  refine ⟨fun hrun => ?_⟩
  obtain ⟨a, between, hx', hf'⟩ := run_bind_eq_ok hrun
  obtain ⟨htaken, hnames⟩ := hx.run hx'
  obtain ⟨htaken', hmore⟩ := (hf a).run hf'
  exact ⟨List.Subset.trans htaken htaken',
    List.append_subset.mpr ⟨List.Subset.trans hnames htaken', hmore⟩⟩

theorem Takes.map {f : α → β} {x : Declaring α} (h : Takes names x) : Takes names (f <$> x) := by
  rw [map_eq_pure_bind]
  exact (h.bind fun a => takes_pure (f a)).mono (List.subset_append_left _ _)

theorem Takes.mapM {f : γ → Declaring α} {names : γ → List String} {items : List γ}
    (h : ∀ item ∈ items, Takes (names item) (f item)) :
    Takes (items.flatMap names) (items.mapM f) := by
  induction items with
  | nil => exact takes_pure []
  | cons item items ih =>
      rw [List.mapM_cons, List.flatMap_cons]
      have hrest := ih fun other hm => h other (List.mem_cons_of_mem _ hm)
      exact (h item List.mem_cons_self).bind fun a =>
        hrest.map

/-- **The wanted name is taken**, be it by this claim or by an earlier one. -/
theorem takes_claim (name : String) : Takes [name] (claim name) := by
  refine ⟨fun {before fresh after} hrun => ?_⟩
  obtain ⟨-, rfl⟩ := Prod.mk.inj (Except.ok.inj hrun)
  refine ⟨List.subset_cons_self _ _, List.cons_subset.mpr ⟨?_, List.nil_subset _⟩⟩
  by_cases hc : before.taken.contains name = true
  · exact List.mem_cons_of_mem _ (List.contains_iff_mem.mp hc)
  · rw [freshName, if_neg hc]
    exact List.mem_cons_self

theorem compositional_takes : Compositional (Takes []) where
  ofPure := takes_pure
  ofThrow := takes_throw
  bind hx hf := hx.bind hf
  claim name := (takes_claim name).mono (List.nil_subset _)
  emit d := ⟨fun hrun => by
    obtain ⟨-, rfl⟩ := Prod.mk.inj (Except.ok.inj hrun)
    exact ⟨fun _ hm => hm, List.nil_subset _⟩⟩

theorem takes_pointerType (ht : ∀ schema hint, Takes [] (typeOf schema hint))
    (hf : ∀ schema hint, Takes [] (fieldType schema hint)) (reference : String) :
    Takes [] (pointerType document typeOf fieldType reference) := by
  refine ⟨fun hrun => ⟨?_, List.nil_subset _⟩⟩
  obtain ⟨-, -, rfl⟩ | ⟨name, -, -, -, rfl⟩ | ⟨schema, name, -, -, -, -, hd⟩ :=
    pointerType_cases hrun
  · exact fun _ hm => hm
  · exact fun _ hm => hm
  · have hdeclared := (compositional_takes.declareAs ht hf document.schema name schema).run hd
    exact List.Subset.trans (List.subset_cons_self _ _) hdeclared.1

/-- Typing a schema takes no name back. -/
theorem takes_typeAt (document : Document) (room depth : Nat) (schema : Json) (hint : String) :
    Takes [] (typeAt document room depth schema hint) :=
  compositional_takes.typeAt takes_pointerType room depth schema hint

/-- Each result of a run over a list comes from a step on the way. -/
theorem forall₂_mapM {f : γ → Declaring α} (h : ∀ item, Takes [] (f item)) {items : List γ}
    {results : List α} (hrun : items.mapM f before = .ok (results, after)) :
    List.Forall₂ (fun item a => ∃ start between, f item start = .ok (a, between) ∧
      between.taken ⊆ after.taken) items results := by
  induction items generalizing results before with
  | nil =>
      obtain ⟨rfl, -⟩ := Prod.mk.inj (Except.ok.inj hrun)
      exact .nil
  | cons item items ih =>
      rw [List.mapM_cons] at hrun
      obtain ⟨first, between, hfirst, hrun⟩ := run_bind_eq_ok hrun
      obtain ⟨rest, last, hrest, hrun⟩ := run_bind_eq_ok hrun
      obtain ⟨rfl, rfl⟩ := Prod.mk.inj (Except.ok.inj hrun)
      have hgrows := (compositional_takes.mapM h items).run hrest
      exact .cons ⟨before, between, hfirst, hgrows.1⟩ (ih hrest)

/-- Each member of one list has its counterpart in the other. -/
theorem exists_of_forall₂ {r : α → β → Prop} {as : List α} {bs : List β}
    (h : List.Forall₂ r as bs) :
    (∀ a ∈ as, ∃ b ∈ bs, r a b) ∧ ∀ b ∈ bs, ∃ a ∈ as, r a b := by
  induction h with
  | nil => simp
  | cons hr _ ih =>
      simp only [List.mem_cons]
      grind

/-! ## Whole documents -/

/-- **In the end each name that is taken is declared.** -/
theorem taken_finalScope {final : Scope} (h : finalScope document = .ok final) :
    final.taken ⊆ final.declarations.map Declaration.name := by
  obtain ⟨schema, pointer?, -, hrun⟩ := exists_of_finalScope h
  exact (accounted_declareAs hrun).balance.subset

/-- A property was typed under the name that is wanted for it, and what was taken by then is taken
in the end. -/
def TypedField (document : Document) (taken : List String) (parent : String)
    (property : String × Json) (type : TypeExpr) : Prop :=
  ∃ room depth before after, typeAt document room depth property.2 (nestedName parent property.1)
    before = .ok (type, after) ∧ after.taken ⊆ taken

/-- **The record for an object schema comes last**, with a field for each property in turn. -/
theorem record_of_declarations {members properties : Members} {blocks : List Declaration}
    (hschema : document.schema = .obj members) (hpointer : document.schema.getStr? "$ref" = none)
    (hmerge : arrayUnder? members "allOf" = none) (hp : objectProperties? members = some properties)
    (h : declarations document = .ok blocks) :
    ∃ others fields, blocks = others ++
        [.record document.root (description? document.schema) fields] ∧
      List.Forall₂ (fun property field => ∃ type,
        TypedField document (blocks.map Declaration.name) document.root property type ∧
        field = fieldOf (requiredNames members) property.1 property.2 type) properties fields := by
  rw [declarations_eq] at h
  obtain ⟨final, hfinal, rfl⟩ := map_eq_ok_iff.mp h
  have htaken := taken_finalScope hfinal
  have hroot : rootSchema document = .ok (document.schema, none) := by
    unfold rootSchema
    rw [hpointer]
  obtain ⟨schema, pointer?, hroot', hrun⟩ := exists_of_finalScope hfinal
  obtain ⟨rfl, rfl⟩ := Prod.mk.inj (Except.ok.inj (hroot.symm.trans hroot'))
  have hflat : flattenAllOf document.schema document.schema = .ok (.obj members) := by
    rw [hschema, flattenAllOf_obj, hmerge]
  obtain ⟨flat, hflat', ⟨members', properties', rfl, hp', hrecord⟩ | ⟨hnone, -⟩⟩ :=
    declareAs_cases hrun
  · obtain rfl : members = members' := Json.obj.inj (Except.ok.inj (hflat.symm.trans hflat'))
    obtain rfl : properties = properties' := Option.some.inj (hp.symm.trans hp')
    obtain ⟨fields, between, hfields, hemit⟩ := run_bind_eq_ok hrecord
    obtain ⟨-, rfl⟩ := Prod.mk.inj (Except.ok.inj hemit)
    refine ⟨between.declarations, fields, by rw [hschema], ?_⟩
    -- each property is typed in a scope of which nothing is forgotten until the end
    have hsteps := forall₂_mapM (fun property : String × Json => (takes_typeAt document _ _
      property.2 (nestedName document.root property.1)).bind fun type => takes_pure _) hfields
    refine hsteps.imp fun property field hstep => ?_
    obtain ⟨start, typed, hfield, hsub⟩ := hstep
    obtain ⟨type, last, htype, hmake⟩ := run_bind_eq_ok hfield
    obtain ⟨rfl, rfl⟩ := Prod.mk.inj (Except.ok.inj hmake)
    exact ⟨type, ⟨_, _, start, _, htype, List.Subset.trans hsub htaken⟩, rfl⟩
  · rw [← Except.ok.inj (hflat.symm.trans hflat')] at hnone
    exact nomatch hnone.symm.trans hp

end StubGen.Schema
