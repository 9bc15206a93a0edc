import StubGen.Proofs.Spec.Normal
import StubGen.Reference

/-!
# Resolving the references of specs

Each spec is resolved or dropped for itself. What is left of it is checked for markers
before it is read again as a signature, so it has to be seen that reading and writing
bring none back: all that a signature keeps of the value it was read from are pieces of
schemas, and the keys that writing adds are never that of a marker. The result for a
whole list is `apply_splits`.
-/

namespace StubGen.SchemaIndex

open Schema (markerKey)
open Spec (member?)

/-! ## Values without markers -/

/-- No object in a value has a member under the key of a marker, whatever that member is. -/
def MarkerFree (value : Json) : Prop :=
  ∀ members, Json.Within (.obj members) value → ∀ m ∈ members, m.1 ≠ markerKey

theorem hereditary_markerFree : Json.Hereditary MarkerFree where
  items h hm := fun members hw => h members (.item hm hw)
  members h hm := fun members hw => h members (.member hm hw)

variable {value : Json} {items : List Json} {members others : Members} {key : String}

theorem markerFree_scalar (ha : value.arr? = none) (ho : value.obj? = none) : MarkerFree value := by
  intro members hw
  cases hw with
  | here => exact absurd ho (by simp [Json.obj?])
  | item _ _ => exact absurd ha (by simp [Json.arr?])
  | member _ _ => exact absurd ho (by simp [Json.obj?])

theorem markerFree_arr (h : ∀ item ∈ items, MarkerFree item) : MarkerFree (.arr items) := by
  intro members hw
  cases hw with
  | item hm hw => exact h _ hm members hw

/-- Members none of which is a marker or has one in it. -/
def FreeMembers (members : Members) : Prop := ∀ m ∈ members, m.1 ≠ markerKey ∧ MarkerFree m.2

theorem markerFree_obj (h : FreeMembers members) : MarkerFree (.obj members) := by
  intro inner hw
  cases hw with
  | here => exact fun m hm => (h m hm).1
  | member hm hw => exact (h _ hm).2 inner hw

theorem freeMembers_nil : FreeMembers [] := fun _ hm => absurd hm List.not_mem_nil

theorem freeMembers_cons (hk : key ≠ markerKey) (hv : MarkerFree value)
    (h : FreeMembers members) : FreeMembers ((key, value) :: members) := by
  intro m hm
  rcases List.mem_cons.mp hm with rfl | hm
  · exact ⟨hk, hv⟩
  · exact h m hm

theorem freeMembers_append (h : FreeMembers members) (h' : FreeMembers others) :
    FreeMembers (members ++ others) := by
  intro m hm
  rcases List.mem_append.mp hm with hm | hm
  · exact h m hm
  · exact h' m hm

theorem freeMembers_member? {value : Option Json} (hk : key ≠ markerKey)
    (hv : ∀ v ∈ value, MarkerFree v) : FreeMembers (member? key value) := by
  cases value with
  | none => exact freeMembers_nil
  | some v => exact freeMembers_cons hk (hv v rfl) freeMembers_nil

theorem freeMembers_member?_map {α : Type} {encode : α → Json} (value : Option α)
    (hk : key ≠ markerKey) (hv : ∀ a, MarkerFree (encode a)) :
    FreeMembers (member? key (value.map encode)) := by
  refine freeMembers_member? hk fun v h => ?_
  obtain ⟨a, -, rfl⟩ := Option.map_eq_some_iff.mp h
  exact hv a

theorem markerFree_str (text : String) : MarkerFree (.str text) := markerFree_scalar rfl rfl

theorem markerFree_bool (b : Bool) : MarkerFree (.bool b) := markerFree_scalar rfl rfl

/-! ## Looking for markers -/

theorem unresolvedInItems_eq_nil_iff :
    unresolvedInItems items = [] ↔ ∀ item ∈ items, unresolvedPaths item = [] := by
  induction items with
  | nil => simp [unresolvedInItems]
  | cons item items ih => simp [unresolvedInItems, ih]

theorem unresolvedInMembers_eq_nil_iff :
    unresolvedInMembers members = [] ↔ ∀ m ∈ members, unresolvedPaths m.2 = [] := by
  induction members with
  | nil => simp [unresolvedInMembers]
  | cons m members ih => simp [unresolvedInMembers, ih]

/-- **No marker escapes the check.** -/
theorem markerFree_of_unresolvedPaths (h : unresolvedPaths value = []) : MarkerFree value := by
  induction value using Json.induction with
  | scalar value ha ho => exact markerFree_scalar ha ho
  | arr items ih =>
      rw [unresolvedPaths, unresolvedInItems_eq_nil_iff] at h
      exact markerFree_arr fun item hm => ih item hm (h item hm)
  | obj members ih =>
      rw [unresolvedPaths] at h
      cases hk : Members.get? members markerKey with
      -- malformed or not, a marker is counted
      | some marker => simp [hk] at h
      | none =>
          rw [hk] at h
          have h := unresolvedInMembers_eq_nil_iff.mp h
          exact markerFree_obj fun m hm =>
            ⟨Members.get?_eq_none_iff.mp hk m hm, ih m hm (h m hm)⟩

/-! ## Writing brings no marker -/

theorem markerFree_object {schema encoded : Option Json} (typeName : Option String)
    (hschema : ∀ value ∈ schema, MarkerFree value)
    (hencoded : ∀ value ∈ encoded, MarkerFree value) :
    MarkerFree (.obj (("kind", .str "object") :: member? "schema" schema ++
      member? "properties" encoded ++ member? "typeName" (typeName.map .str))) := by
  refine markerFree_obj (freeMembers_append (freeMembers_append ?_ ?_) ?_)
  · exact freeMembers_cons (by decide) (markerFree_str _)
      (freeMembers_member? (by decide) hschema)
  · exact freeMembers_member? (by decide) hencoded
  · exact freeMembers_member?_map typeName (by decide) markerFree_str

mutual

theorem markerFree_encodeType :
    ∀ type : DeclaredType, type.Normal MarkerFree → MarkerFree (Spec.encodeType type)
  | .void, _ | .any, _ | .array none, _ | .function none, _ => by
      rw [Spec.encodeType]
      exact markerFree_obj (freeMembers_cons (by decide) (markerFree_str _) freeMembers_nil)
  | .primitive _, _ | .plain _, _ => by
      rw [Spec.encodeType]
      exact markerFree_obj (freeMembers_cons (by decide) (markerFree_str _)
        (freeMembers_cons (by decide) (markerFree_str _) freeMembers_nil))
  | .array (some items), h => by
      rw [Spec.encodeType]
      exact markerFree_obj (freeMembers_cons (by decide) (markerFree_str _)
        (freeMembers_cons (by decide) (markerFree_encodeItems items h) freeMembers_nil))
  | .function (some signature), h => by
      rw [Spec.encodeType]
      exact markerFree_obj (freeMembers_cons (by decide) (markerFree_str _)
        (freeMembers_cons (by decide) (markerFree_encodeSignature signature h) freeMembers_nil))
  | .object schema none typeName, h => by
      rw [Spec.encodeType]
      have hschema := (DeclaredType.normal_object_iff.mp h).1
      exact markerFree_object typeName (fun v hv => (hschema v hv).1) (by simp)
  | .object schema (some parameters) typeName, h => by
      have hparameters := markerFree_encodeParameters parameters h.2
      have hschema := (DeclaredType.normal_object_iff.mp h).1
      rw [Spec.encodeType]
      refine markerFree_object typeName (fun v hv => (hschema v hv).1) fun v hv => ?_
      rw [← Option.some.inj hv]
      exact markerFree_arr hparameters

theorem markerFree_encodeItems :
    ∀ items : ArrayItems, items.Normal MarkerFree → MarkerFree (Spec.encodeItems items)
  | .type type, h => by
      rw [Spec.encodeItems]
      exact markerFree_encodeType type h
  | .schema _, h => h.1

theorem markerFree_encodeParameters :
    ∀ parameters : List Parameter, AllNormal MarkerFree parameters →
      ∀ item ∈ Spec.encodeParameters parameters, MarkerFree item
  | [], _ => fun _ hm => absurd hm List.not_mem_nil
  | p :: parameters, h => by
      intro item hm
      rcases List.mem_cons.mp hm with hm | hm
      · rw [hm]
        exact markerFree_encodeParameter p h.1
      · exact markerFree_encodeParameters parameters h.2 item hm

theorem markerFree_encodeParameter :
    ∀ p : Parameter, p.Normal MarkerFree → MarkerFree (Spec.encodeParameter p)
  | .mk name description required nullable type, h => by
      have htype := markerFree_encodeType type h
      rw [Spec.encodeParameter]
      refine markerFree_obj (freeMembers_append (freeMembers_append ?_ ?_) ?_)
      · exact freeMembers_cons (by decide) (markerFree_str _)
          (freeMembers_cons (by decide) (markerFree_str _)
            (freeMembers_cons (by decide) (markerFree_bool _) freeMembers_nil))
      · exact freeMembers_member?_map nullable (by decide) markerFree_bool
      · exact freeMembers_cons (by decide) htype freeMembers_nil

theorem markerFree_encodeSignature :
    ∀ s : Signature, s.Normal MarkerFree → MarkerFree (Spec.encodeSignature s)
  | .mk parameters returnType synchronous, h => by
      have hparameters := markerFree_encodeParameters parameters h.1
      have hreturn := markerFree_encodeType returnType h.2
      rw [Spec.encodeSignature]
      refine markerFree_obj (freeMembers_append ?_ ?_)
      · exact freeMembers_cons (by decide) (markerFree_arr hparameters)
          (freeMembers_cons (by decide) hreturn freeMembers_nil)
      · exact freeMembers_member?_map synchronous (by decide) markerFree_bool

end

/-! ## One spec -/

variable {index : SchemaIndex} {strict : Bool} {name : String}

theorem markerFree_of_resolveValue {resolved : Json}
    (h : index.resolveValue true name value = .ok resolved) : MarkerFree resolved := by
  unfold resolveValue at h
  obtain ⟨found, -, h⟩ := Result.bind_eq_ok_iff.mp h
  obtain ⟨_, hcheck, h⟩ := Result.bind_eq_ok_iff.mp h
  rw [← Result.pure_eq_ok_iff.mp h]
  apply markerFree_of_unresolvedPaths
  unfold requireResolved at hcheck
  cases hpaths : unresolvedPaths found with
  | nil => rfl
  | cons path paths => simp [hpaths] at hcheck

theorem markerFree_of_resolveSignature {signature resolved : Signature}
    (h : index.resolveSignature true name signature = .ok resolved) :
    MarkerFree (Spec.encodeSignature resolved) := by
  unfold resolveSignature at h
  obtain ⟨value, hvalue, h⟩ := Result.bind_eq_ok_iff.mp h
  have hread := Result.mapError_eq_ok_iff.mp h
  have hfree := markerFree_of_resolveValue hvalue
  exact markerFree_encodeSignature resolved
    ((Spec.readsNormal hereditary_markerFree hfree).signature .outside resolved hread)

/-- What the references of a spec do not change. -/
structure SameEntry (spec resolved : Spec) : Prop where
  id : resolved.id = spec.id
  context : resolved.context = spec.context
  name : resolved.name = spec.name
  description : resolved.description = spec.description
  category : resolved.category = spec.category
  code : resolved.code = spec.code
  language : resolved.language = spec.language
  contextName : resolved.contextName = spec.contextName

theorem SameEntry.qualifiedName {spec resolved : Spec} (h : SameEntry spec resolved) :
    resolved.qualifiedName = spec.qualifiedName := by
  unfold Spec.qualifiedName
  rw [h.context, h.name]

/-- A spec whose signature, definition and schema are written without markers. -/
structure WithoutMarkers (spec : Spec) : Prop where
  signature : ∀ s ∈ spec.signature, MarkerFree (Spec.encodeSignature s)
  definition : ∀ v ∈ spec.definition, MarkerFree v
  schema : ∀ v ∈ spec.schema, MarkerFree v

theorem resolveSpec_eq_ok {spec resolved : Spec} (h : index.resolveSpec spec = .ok resolved) :
    SameEntry spec resolved ∧ (isStrict spec.category = true → WithoutMarkers resolved) := by
  unfold resolveSpec at h
  dsimp only at h
  obtain ⟨signature, hsignature, h⟩ := Result.bind_eq_ok_iff.mp h
  obtain ⟨definition, hdefinition, h⟩ := Result.bind_eq_ok_iff.mp h
  obtain ⟨schema, hschema, h⟩ := Result.bind_eq_ok_iff.mp h
  obtain ⟨stored, -, h⟩ := Result.bind_eq_ok_iff.mp h
  rw [← Result.pure_eq_ok_iff.mp h]
  refine ⟨⟨rfl, rfl, rfl, rfl, rfl, rfl, rfl, rfl⟩, fun hstrict => ?_⟩
  rw [hstrict] at hsignature hdefinition hschema
  refine ⟨fun s hs => ?_, fun v hv => ?_, fun v hv => ?_⟩
  · obtain ⟨_, -, hs⟩ := Result.exists_of_option_mapM hsignature hs
    exact markerFree_of_resolveSignature hs
  · obtain ⟨_, -, hv⟩ := Result.exists_of_option_mapM hdefinition hv
    exact markerFree_of_resolveValue hv
  · obtain ⟨_, -, hv⟩ := Result.exists_of_option_mapM hschema hv
    exact markerFree_of_resolveValue hv

/-! ## Lists of specs -/

/-- What becomes of a spec, if it is not dropped. -/
def survivor? (index : SchemaIndex) (spec : Spec) : Option Spec := (index.resolveSpec spec).toOption

theorem survivor?_eq_some_iff {spec resolved : Spec} :
    index.survivor? spec = some resolved ↔ index.resolveSpec spec = .ok resolved := by
  unfold survivor?
  cases index.resolveSpec spec <;> simp [Except.toOption]

theorem apply_cons (index : SchemaIndex) (spec : Spec) (specs : List Spec) :
    index.apply (spec :: specs) =
      match index.survivor? spec with
      | some resolved => ⟨resolved :: (index.apply specs).items, (index.apply specs).dropped⟩
      | none => ⟨(index.apply specs).items, spec.identity :: (index.apply specs).dropped⟩ := by
  unfold survivor? apply
  rw [List.foldr_cons]
  cases index.resolveSpec spec <;> rfl

theorem apply_eq (index : SchemaIndex) (specs : List Spec) :
    index.apply specs =
      ⟨specs.filterMap index.survivor?,
        (specs.filter fun spec => (index.survivor? spec).isNone).map Spec.identity⟩ := by
  induction specs with
  | nil => rfl
  | cons spec specs ih =>
      rw [apply_cons, ih]
      cases hs : index.survivor? spec with
      | none => simp [hs]
      | some resolved => simp [hs]

theorem get?_member? (k key : String) (value : Option Json) :
    Members.get? (member? k value) key = if key = k then value else none := by
  cases value with
  | none => simp [member?, Members.get?_nil]
  | some v => rw [member?, Members.get?_cons, Members.get?_nil]

/-- The JSON of the fields that may hold references. -/
theorem markerFree_of_encode {spec : Spec} (h : WithoutMarkers spec)
    (hk : key ∈ ["function", "definition", "schema"])
    (hv : (Spec.encode spec).get? key = some value) : MarkerFree value := by
  unfold Spec.encode Json.get? at hv
  simp only [List.mem_cons, List.not_mem_nil, or_false] at hk
  rcases hk with rfl | rfl | rfl
  · have hfield : spec.signature.map Spec.encodeSignature = some value := by
      simpa [Members.get?_append, Members.get?_cons, Members.get?_nil, get?_member?] using hv
    obtain ⟨s, hs, rfl⟩ := Option.map_eq_some_iff.mp hfield
    exact h.signature s hs
  · have hfield : spec.definition = some value := by
      simpa [Members.get?_append, Members.get?_cons, Members.get?_nil, get?_member?] using hv
    exact h.definition value hfield
  · have hfield : spec.schema = some value := by
      simpa [Members.get?_append, Members.get?_cons, Members.get?_nil, get?_member?] using hv
    exact h.schema value hfield

/-- **Resolution splits a list of specs.** Those that survive come in order, each made of one spec
with the same entry, and the others are named in order; one half of the list does not matter to
what becomes of the other. In a function or a schema that survives, no marker is left. -/
theorem apply_splits (index : SchemaIndex) :
    (∀ specs, index.apply specs =
      ⟨specs.filterMap index.survivor?,
        (specs.filter fun spec => (index.survivor? spec).isNone).map Spec.identity⟩) ∧
    (∀ specs others, index.apply (specs ++ others) =
      ⟨(index.apply specs).items ++ (index.apply others).items,
        (index.apply specs).dropped ++ (index.apply others).dropped⟩) ∧
    (∀ spec resolved, index.survivor? spec = some resolved → SameEntry spec resolved ∧
      (resolved.category.isFunction = true ∨ resolved.category = .schema →
        ∀ key ∈ ["function", "definition", "schema"], ∀ value,
          (Spec.encode resolved).get? key = some value → MarkerFree value)) := by
  refine ⟨apply_eq index, fun specs others => ?_, fun spec resolved h => ?_⟩
  · simp only [apply_eq, List.filterMap_append, List.filter_append, List.map_append]
  · obtain ⟨hsame, hfree⟩ := resolveSpec_eq_ok (survivor?_eq_some_iff.mp h)
    refine ⟨hsame, fun hcategory key hk value hv => ?_⟩
    rw [hsame.category] at hcategory
    have hstrict : isStrict spec.category = true := by
      rcases hcategory with h | h <;> simp [isStrict, h]
    exact markerFree_of_encode (hfree hstrict) hk hv

/-- A function that gives what a schema says. -/
def getter (schema : Json) : Spec :=
  { Spec.blank with
    id := "1", name := "getPet"
    signature := some (.mk [] (.object (some schema) none none) none) }

/-- A function survives whose only marker is indexed, and the marker is gone. -/
theorem apply_splits_getter :
    let index : SchemaIndex := ⟨[("shop.Pet", .obj [("type", .str "object")])]⟩
    let marker : Json := .obj [(markerKey, .obj [("path", .str "shop.Pet")])]
    let resolved := getter (.obj [("type", .str "object")])
    index.survivor? (getter marker) = some resolved ∧ SameEntry (getter marker) resolved ∧
      ∀ value, (Spec.encode resolved).get? "function" = some value → MarkerFree value := by
  intro index marker resolved
  have h : index.survivor? (getter marker) = some resolved := by rfl
  obtain ⟨hsame, hfree⟩ := (apply_splits index).2.2 (getter marker) resolved h
  exact ⟨h, hsame, hfree (.inl rfl) "function" (by simp)⟩

end StubGen.SchemaIndex
