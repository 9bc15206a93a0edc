import Mathlib.Data.List.Basic
import StubGen.Package.Generation
import StubGen.Proofs.Reference.Agreement

/-!
# Narrowing a run

A run indexes the schemas among the wanted specs, so the query decides both which specs are
generated and which references can be resolved. Resolving a spec keeps what the query looks
at, so what is left of a full run can be filtered before or after: `filter_kept`. The two runs
then differ in the index only, and treat a spec alike if all its references lead to wanted
schemas; a function or a schema with a reference to a schema that is not wanted is lost. That
is the main result, `kept_narrowed`.
-/

namespace StubGen.Generator

open SchemaIndex

variable {query : Query} {fetched : List Spec} {spec : Spec} {path : String}

/-- The specs that a run generates: those wanted whose references it can resolve. -/
def kept (query : Query) (fetched : List Spec) : List Spec :=
  ((SchemaIndex.ofSpecs (select query fetched)).apply (select query fetched)).items

/-- What a run generates is what it keeps. -/
theorem batches_of_generate {g : Generator} {baseUrl source : String} {disk after : Disk}
    {generation : Generation}
    (h : g.generate query baseUrl source fetched disk = (.ok generation, after)) :
    ∃ between, g.batches (kept query fetched) (sectionsOf query) between =
      (generation.reports, after) := by
  unfold generate at h
  dsimp only at h
  split at h
  · exact absurd (Prod.mk.inj h).1 (by simp)
  · obtain ⟨_, between, -, h⟩ := Result.run_bind_eq_ok h
    obtain ⟨reports, last, hbatches, h⟩ := Result.run_bind_eq_ok h
    obtain ⟨rfl, rfl⟩ := Result.run_pure_eq_ok h
    refine ⟨between, ?_⟩
    have hrun := Prod.mk.inj hbatches
    exact Prod.ext (Except.ok.inj hrun.1) hrun.2

/-! ## What a query looks at -/

/-- A query sees no difference between a spec and what has been resolved of it. -/
theorem accepts_of_sameEntry {resolved : Spec} (h : SameEntry spec resolved) :
    query.accepts resolved = query.accepts spec := by
  unfold Query.accepts
  rw [h.context, h.category, h.name, h.id]

theorem accepts_everything (spec : Spec) : Query.everything.accepts spec = true := by
  simp [Query.accepts, Query.matchesContext, Query.everything]

theorem select_eq_filter (query : Query) (fetched : List Spec) :
    select query fetched = (select .everything fetched).filter query.accepts := by
  unfold select
  rw [List.filter_filter]
  exact List.filter_congr fun spec _ => by simp [accepts_everything]

theorem kept_eq (query : Query) (fetched : List Spec) :
    kept query fetched =
      (select query fetched).filterMap (SchemaIndex.ofSpecs (select query fetched)).survivor? := by
  unfold kept
  rw [apply_eq]

/-- **What is left of a full run can be filtered before or after.** -/
theorem filter_kept (query : Query) (fetched : List Spec) :
    (kept .everything fetched).filter query.accepts =
      (select query fetched).filterMap
        (SchemaIndex.ofSpecs (select .everything fetched)).survivor? := by
  rw [kept_eq, select_eq_filter query]
  generalize SchemaIndex.ofSpecs (select .everything fetched) = index
  induction select .everything fetched with
  | nil => rfl
  | cons spec specs ih =>
      cases hs : index.survivor? spec with
      | none => by_cases ha : query.accepts spec = true <;> simp [hs, ha, ih]
      | some resolved =>
          have hsame : query.accepts resolved = query.accepts spec :=
            accepts_of_sameEntry (resolveSpec_eq_ok (survivor?_eq_some_iff.mp hs)).1
          by_cases ha : query.accepts spec = true <;> simp [hs, ha, hsame, ih]

/-! ## The two indexes -/

/-- No filter on usable specs takes a schema away. -/
theorem filter_goesBy_select (query : Query) (fetched : List Spec) (path : String) :
    (select query fetched).filter (Spec.goesBy path) =
      (fetched.filter (Spec.goesBy path)).filter query.accepts := by
  unfold select
  rw [List.filter_filter, List.filter_filter]
  refine List.filter_congr fun spec _ => ?_
  have husable : spec.goesBy path = true → isUsable spec = true := by
    intro h
    have hcategory : spec.category = .schema := by
      unfold Spec.goesBy at h
      simp_all
    simp [isUsable, hcategory]
  cases hgoes : spec.goesBy path with
  | false => simp
  | true => simp [husable hgoes]

/-- Where all schemas that go by a path are wanted, the two indexes answer alike. -/
theorem get?_narrow_of_wanted (h : ∀ s ∈ fetched, s.goesBy path → query.accepts s = true) :
    (SchemaIndex.ofSpecs (select query fetched)).get? path =
      (SchemaIndex.ofSpecs (select .everything fetched)).get? path := by
  have hwanted : ∀ s ∈ fetched.filter (Spec.goesBy path), query.accepts s = true :=
    fun s hm => h s (List.mem_filter.mp hm).1 (List.mem_filter.mp hm).2
  rw [get?_ofSpecs, get?_ofSpecs, filter_goesBy_select, filter_goesBy_select,
    List.filter_eq_self.mpr hwanted, List.filter_eq_self.mpr fun s _ => accepts_everything s]

/-- Where none is wanted, the narrow index has no answer. -/
theorem get?_narrow_of_unwanted (h : ∀ s ∈ fetched, s.goesBy path → query.accepts s = false) :
    (SchemaIndex.ofSpecs (select query fetched)).get? path = none := by
  have hnone : ∀ s ∈ fetched.filter (Spec.goesBy path), ¬ query.accepts s = true := fun s hm =>
    Bool.eq_false_iff.mp (h s (List.mem_filter.mp hm).1 (List.mem_filter.mp hm).2)
  rw [get?_ofSpecs, filter_goesBy_select, List.filter_eq_nil_iff.mpr hnone]
  rfl

/-- All references of a spec lead to wanted schemas, or to none at all: wherever a full run comes
when it resolves the spec, each schema that goes by a path named there is wanted. -/
def LeadsInside (query : Query) (fetched : List Spec) (spec : Spec) : Prop :=
  ∀ value ∈ spec.referringValues, ∀ path,
    Reaches (SchemaIndex.ofSpecs (select .everything fetched)) value path →
      ∀ s ∈ fetched, s.goesBy path → query.accepts s = true

/-- A narrow run that resolves a spec comes to a reference to a path by which no wanted schema
goes. -/
def LeadsOutside (query : Query) (fetched : List Spec) (spec : Spec) : Prop :=
  ∃ value ∈ spec.checkedValues, ∃ path,
    Reaches (SchemaIndex.ofSpecs (select query fetched)) value path ∧
      ∀ s ∈ fetched, s.goesBy path → query.accepts s = false

theorem survivor?_of_leadsInside (h : LeadsInside query fetched spec) :
    (SchemaIndex.ofSpecs (select query fetched)).survivor? spec =
      (SchemaIndex.ofSpecs (select .everything fetched)).survivor? spec := by
  unfold SchemaIndex.survivor?
  refine congrArg _ (resolveSpec_congr fun value hm path hr => ?_).symm
  exact (get?_narrow_of_wanted (h value hm path hr)).symm

theorem survivor?_of_leadsOutside (hstrict : isStrict spec.category = true)
    (h : LeadsOutside query fetched spec) :
    (SchemaIndex.ofSpecs (select query fetched)).survivor? spec = none := by
  obtain ⟨value, hm, path, hreach, hnone⟩ := h
  exact survivor?_eq_none_of_reaches hstrict hm hreach (get?_narrow_of_unwanted hnone)

/-- **A narrow run loses specs only at references that lead out of it.** If those of all wanted
specs lead to wanted schemas, the run keeps what is left of a full run among the wanted specs, in
the same order and with the same content. And spec by spec, what becomes of a wanted spec is the
same in both runs if its own references lead to wanted schemas, whatever the others do, while a
function or a schema of which one leads to a schema that is not wanted is dropped, even where the
full run keeps it. -/
theorem kept_narrowed (query : Query) (fetched : List Spec) :
    let narrow := SchemaIndex.ofSpecs (select query fetched)
    let full := SchemaIndex.ofSpecs (select .everything fetched)
    ((∀ spec ∈ select query fetched, LeadsInside query fetched spec) →
      kept query fetched = (kept .everything fetched).filter query.accepts) ∧
    kept query fetched = (select query fetched).filterMap narrow.survivor? ∧
    (kept .everything fetched).filter query.accepts =
      (select query fetched).filterMap full.survivor? ∧
    (∀ spec, LeadsInside query fetched spec → narrow.survivor? spec = full.survivor? spec) ∧
    (∀ spec, isStrict spec.category = true → LeadsOutside query fetched spec →
      narrow.survivor? spec = none) := by
  intro narrow full
  refine ⟨fun h => ?_, kept_eq query fetched, filter_kept query fetched,
    fun spec => survivor?_of_leadsInside, fun spec => survivor?_of_leadsOutside⟩
  rw [kept_eq, filter_kept]
  exact List.filterMap_congr fun spec hm => survivor?_of_leadsInside (h spec hm)

/-- The query for the specs of a shop. -/
def onlyShop : Query := { Query.everything with contexts := ["shop"] }

/-- The schema of a pet in a context. -/
def petSchema (context : String) : Spec :=
  { Spec.blank with
    id := "2", context := context, name := "Pet", category := .schema
    definition := some (.obj [("type", .str "object")]) }

/-- A function in a context that gives what a schema says. -/
def getterIn (context : String) (schema : Json) : Spec := { getter schema with context := context }

/-- A pet of the zoo is not among the wanted specs. -/
theorem leadsOutside_zoo :
    LeadsOutside onlyShop [getterIn "shop" (markerOf "zoo.Pet"), petSchema "zoo"]
      (getterIn "shop" (markerOf "zoo.Pet")) := by
  refine ⟨_, List.mem_cons_self, "zoo.Pet",
    ⟨2, [(Schema.markerKey, .obj [("path", .str "zoo.Pet")])], ?_, ⟨_, rfl, rfl⟩⟩, ?_⟩
  · refine .next (.member rfl (List.mem_cons_of_mem _ List.mem_cons_self)) (.next ?_ .here)
    exact .member rfl (List.mem_cons_of_mem _ List.mem_cons_self)
  · intro s hm hgoes
    rcases List.mem_cons.mp hm with rfl | hm
    · exact absurd hgoes (by decide)
    · rw [List.mem_singleton.mp hm]
      decide

/-- With the pet in the shop nothing is lost, though the zoo has a function for it too; with the
pet in the zoo the function of the shop is dropped. -/
theorem kept_narrowed_shop :
    let getters := ["shop", "zoo"].map (getterIn · (markerOf "shop.Pet"))
    kept onlyShop (petSchema "shop" :: getters) =
        (kept .everything (petSchema "shop" :: getters)).filter onlyShop.accepts ∧
      (SchemaIndex.ofSpecs (select onlyShop
        [getterIn "shop" (markerOf "zoo.Pet"), petSchema "zoo"])).survivor?
          (getterIn "shop" (markerOf "zoo.Pet")) = none := by
  intro getters
  refine ⟨(kept_narrowed onlyShop _).1 fun spec _ value _ path _ s hm hgoes => ?_,
    (kept_narrowed onlyShop _).2.2.2.2 _ (by decide) leadsOutside_zoo⟩
  -- the only schema is one of the shop
  have hcategory : s.category = .schema := by
    unfold Spec.goesBy at hgoes
    simp_all
  rcases List.mem_cons.mp hm with rfl | hm
  · decide
  · have : s.category = .apiFunction := by
      obtain ⟨context, -, rfl⟩ := List.mem_map.mp hm
      rfl
    exact absurd (hcategory.symm.trans this) (by decide)

/-- **A narrow run loses a function whose schema lives elsewhere.** The full run keeps it. -/
theorem kept_loses_crossing :
    let fetched := [getterIn "shop" (markerOf "zoo.Pet"), petSchema "zoo"]
    kept onlyShop fetched = [] ∧
      (kept .everything fetched).filter onlyShop.accepts =
        [getterIn "shop" (.obj [("type", .str "object")])] := by
  exact ⟨rfl, rfl⟩

end StubGen.Generator
