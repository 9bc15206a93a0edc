import Mathlib.Data.List.Induction
import StubGen.Proofs.Reference.Apply
import StubGen.Proofs.Reference.Unfolding

/-!
# Indexes that agree

Resolution reads an index only at the paths that it comes to, so two indexes that answer
alike at those resolve a value alike: `resolve_congr`. The other way round, a path that it
comes to and that is not indexed leaves its marker behind: `not_markerFree_of_reaches`. What
an index answers is said in terms of the specs it is made of: the last schema that goes by
a path counts, `get?_ofSpecs`.
-/

namespace StubGen

namespace Members

theorem get?_insert (members : Members) (k key : String) (value : Json) :
    get? (insert members k value) key = if key = k then some value else get? members key := by
  induction members with
  | nil => rw [insert, get?_cons]
  | cons m members ih =>
      obtain ⟨k', v⟩ := m
      by_cases hk : k' = k
      · subst hk
        rw [insert, if_pos rfl, get?_cons, get?_cons]
        split <;> rfl
      · rw [insert, if_neg hk, get?_cons, get?_cons, ih]
        by_cases hkey : key = k'
        · rw [if_pos hkey, if_pos hkey, if_neg (hkey ▸ hk)]
        · rw [if_neg hkey, if_neg hkey]

end Members

namespace Spec

/-- The values of a spec in which a function or a schema may have no marker left. -/
def checkedValues (spec : Spec) : List Json :=
  (spec.signature.map encodeSignature).toList ++ spec.definition.toList ++ spec.schema.toList

/-- All values of a spec in which references are resolved. -/
def referringValues (spec : Spec) : List Json :=
  spec.checkedValues ++ (spec.storedVariable.map fun v => encodeType v.valueType).toList

/-- A spec is a schema, and markers with a path stand for it. -/
def goesBy (path : String) (spec : Spec) : Bool :=
  spec.category == .schema && spec.contextName.getD spec.qualifiedName == path

end Spec

namespace SchemaIndex

open Schema (markerKey)

variable {index other : SchemaIndex} {value result : Json} {path : String} {spec : Spec}

/-! ## Indexes that answer alike -/

/-- Two indexes answer alike at all paths that resolving a value comes to. -/
def AgreeOn (index other : SchemaIndex) (value : Json) : Prop :=
  ∀ path, Reaches index value path → index.get? path = other.get? path

theorem AgreeOn.enters {child : Json} (h : AgreeOn index other value)
    (he : Enters index value child) : AgreeOn index other child :=
  fun path hr => h path (hr.next he)

theorem mapM_congr {α β ε : Type} {f g : α → Except ε β} {items : List α}
    (h : ∀ item ∈ items, f item = g item) : items.mapM f = items.mapM g := by
  induction items with
  | nil => rfl
  | cons item items ih =>
      rw [List.mapM_cons, List.mapM_cons, h item List.mem_cons_self,
        ih fun later hm => h later (List.mem_cons_of_mem _ hm)]

/-- **Resolution reads only the paths that it comes to.** -/
theorem resolveAt_congr {room : Nat} {inside : List String} (h : AgreeOn index other value) :
    index.resolveAt room inside value = other.resolveAt room inside value := by
  induction room generalizing inside value with
  -- by induction on the room, with a case for each form of a value
  | zero => rfl
  | succ room ih =>
      cases form index value with
      | scalar ha ho => rw [resolveAt_scalar ha ho, resolveAt_scalar ha ho]
      | arr items =>
          rw [resolveAt_arr, resolveAt_arr]
          exact congrArg _ (mapM_congr fun item hm => ih (h.enters (.item hm)))
      | obj hmarker =>
          rw [resolveAt_obj hmarker, resolveAt_obj hmarker]
          refine congrArg _ (mapM_congr fun m hm => ?_)
          exact congrArg _ (ih (h.enters (.member hmarker hm)))
      | malformed hm hp =>
          rw [resolveAt, resolveAt, hm]
          simp only [pathOf, hp]
          rfl
      | known hr ht =>
          -- a marker is met at once, so the indexes agree on its path
          have ht' := (h _ ⟨0, _, .here, hr⟩).symm.trans ht
          rw [resolveAt_known hr ht, resolveAt_known hr ht', ih (h.enters (.target hr ht))]
      | unknown hr ht =>
          have ht' := (h _ ⟨0, _, .here, hr⟩).symm.trans ht
          rw [resolveAt_unknown hr ht, resolveAt_unknown hr ht']

theorem resolve_congr (h : AgreeOn index other value) : index.resolve value = other.resolve value :=
  resolveAt_congr h

theorem resolveValue_congr (strict : Bool) (name : String) (h : AgreeOn index other value) :
    index.resolveValue strict name value = other.resolveValue strict name value := by
  unfold resolveValue
  rw [resolve_congr h]

theorem option_mapM_congr {α β ε : Type} {f g : α → Except ε β} {given : Option α}
    (h : ∀ a ∈ given, f a = g a) : given.mapM f = given.mapM g := by
  cases given with
  | none => rfl
  | some a => exact congrArg (some <$> ·) (h a rfl)

/-- A spec is resolved alike if its values are. -/
theorem resolveSpec_congr (h : ∀ value ∈ spec.referringValues, AgreeOn index other value) :
    index.resolveSpec spec = other.resolveSpec spec := by
  simp only [Spec.referringValues, Spec.checkedValues, List.mem_append, Option.mem_toList,
    Option.map_eq_some_iff] at h
  have hsignature (strict : Bool) (name : String) : ∀ s ∈ spec.signature,
      index.resolveSignature strict name s = other.resolveSignature strict name s := by
    intro s hs
    unfold resolveSignature
    rw [resolveValue_congr _ _ (h _ (.inl (.inl (.inl ⟨s, hs, rfl⟩))))]
  have hdefinition (strict : Bool) (name : String) : ∀ v ∈ spec.definition,
      index.resolveValue strict name v = other.resolveValue strict name v :=
    fun v hv => resolveValue_congr _ _ (h v (.inl (.inl (.inr hv))))
  have hschema (strict : Bool) (name : String) : ∀ v ∈ spec.schema,
      index.resolveValue strict name v = other.resolveValue strict name v :=
    fun v hv => resolveValue_congr _ _ (h v (.inl (.inr hv)))
  have hstored (name : String) : ∀ v ∈ spec.storedVariable,
      index.resolveVariable name v = other.resolveVariable name v := by
    intro v hv
    unfold resolveVariable
    rw [resolveValue_congr _ _ (h _ (.inr ⟨v, hv, rfl⟩))]
  unfold resolveSpec
  dsimp only
  rw [option_mapM_congr (hsignature _ _), option_mapM_congr (hdefinition _ _),
    option_mapM_congr (hschema _ _), option_mapM_congr (hstored _)]

/-! ## Markers that stay -/

theorem Refers.unique {members : Members} {path path' : String} (h : Refers members path)
    (h' : Refers members path') : path = path' := by
  obtain ⟨marker, hm, hp⟩ := h
  obtain ⟨marker', hm', hp'⟩ := h'
  obtain rfl := Option.some.inj (hm.symm.trans hm')
  exact Option.some.inj (hp.symm.trans hp')

theorem Refers.get?_ne_none {members : Members} (h : Refers members path) :
    Members.get? members markerKey ≠ none := by
  obtain ⟨marker, hm, -⟩ := h
  simp [hm]

theorem mem_of_unfoldsItems {items results : List Json} {item : Json}
    (h : UnfoldsItems index items results) (hm : item ∈ items) :
    ∃ result ∈ results, Unfolds index item result := by
  induction items generalizing results with
  | nil => exact absurd hm List.not_mem_nil
  | cons first items ih =>
      cases h with
      | cons hfirst hrest =>
          rcases List.mem_cons.mp hm with rfl | hm
          · exact ⟨_, List.mem_cons_self, hfirst⟩
          · obtain ⟨result, hresult, hu⟩ := ih hrest hm
            exact ⟨result, List.mem_cons_of_mem _ hresult, hu⟩

theorem mem_of_unfoldsMembers {members results : Members} {key : String} {child : Json}
    (h : UnfoldsMembers index members results) (hm : (key, child) ∈ members) :
    ∃ result, (key, result) ∈ results ∧ Unfolds index child result := by
  induction members generalizing results with
  | nil => exact absurd hm List.not_mem_nil
  | cons first members ih =>
      cases h with
      | cons hfirst hrest =>
          rcases List.mem_cons.mp hm with heq | hm
          · obtain ⟨rfl, rfl⟩ := Prod.mk.inj heq
            exact ⟨_, List.mem_cons_self, hfirst⟩
          · obtain ⟨result, hresult, hu⟩ := ih hrest hm
            exact ⟨result, List.mem_cons_of_mem _ hresult, hu⟩

/-- What a value enters unfolds to a part of what the value unfolds to. -/
theorem unfolds_of_enters {child : Json} (h : Unfolds index value result)
    (he : Enters index value child) :
    ∃ part, Unfolds index child part ∧ Json.Within part result := by
  -- the way in has to fit how the value unfolds: the other pairs contradict each other
  cases he with
  | item hm =>
      cases h with
      | scalar ha _ => exact absurd ha (by simp [Json.arr?])
      | arr hitems =>
          obtain ⟨part, hpart, hu⟩ := mem_of_unfoldsItems hitems hm
          exact ⟨part, hu, .item hpart .here⟩
  | member hmarker hm =>
      cases h with
      | scalar _ ho => exact absurd ho (by simp [Json.obj?])
      | obj _ hmembers =>
          obtain ⟨part, hpart, hu⟩ := mem_of_unfoldsMembers hmembers hm
          exact ⟨part, hu, .member hpart .here⟩
      | known hr _ _ => exact absurd hmarker hr.get?_ne_none
      | unknown hr _ => exact absurd hmarker hr.get?_ne_none
  | target hr ht =>
      cases h with
      | scalar _ ho => exact absurd ho (by simp [Json.obj?])
      | obj hmarker _ => exact absurd hmarker hr.get?_ne_none
      | known hr' ht' hu =>
          obtain rfl := hr.unique hr'
          obtain rfl := Option.some.inj (ht.symm.trans ht')
          exact ⟨result, hu, .here⟩
      | unknown hr' ht' =>
          obtain rfl := hr.unique hr'
          exact absurd (ht.symm.trans ht') (by simp)

/-- What a value visits unfolds to a part of what the value unfolds to. -/
theorem unfolds_of_visits {seen : Json} {d : Nat} (h : Unfolds index value result)
    (hv : Visits index value d seen) :
    ∃ part, Unfolds index seen part ∧ Json.Within part result := by
  induction hv generalizing result with
  | here => exact ⟨result, h, .here⟩
  | next he _ ih =>
      obtain ⟨middle, hmiddle, hw⟩ := unfolds_of_enters h he
      obtain ⟨part, hpart, hw'⟩ := ih hmiddle
      exact ⟨part, hpart, hw'.trans hw⟩

/-- **A path that is not indexed leaves its marker behind.** -/
theorem not_markerFree_of_reaches (h : Unfolds index value result)
    (hreach : Reaches index value path) (hnone : index.get? path = none) :
    ¬ MarkerFree result := by
  obtain ⟨d, members, hv, hr⟩ := hreach
  obtain ⟨part, hu, hw⟩ := unfolds_of_visits h hv
  intro hfree
  cases hu with
  | scalar _ ho => exact absurd ho (by simp [Json.obj?])
  | obj hmarker _ => exact hr.get?_ne_none hmarker
  | known hr' ht' _ =>
      obtain rfl := hr.unique hr'
      exact absurd (hnone.symm.trans ht') (by simp)
  | unknown _ _ => exact hr.get?_ne_none (Members.get?_eq_none_iff.mpr (hfree members hw))

theorem resolveValue_ne_ok_of_reaches {name : String} (hreach : Reaches index value path)
    (hnone : index.get? path = none) : index.resolveValue true name value ≠ .ok result := by
  intro h
  have hfree := markerFree_of_resolveValue h
  unfold resolveValue at h
  obtain ⟨found, hfound, h⟩ := Result.bind_eq_ok_iff.mp h
  obtain ⟨_, -, h⟩ := Result.bind_eq_ok_iff.mp h
  obtain rfl := Result.pure_eq_ok_iff.mp h
  have hu := unfolds_of_resolveAt (Result.mapError_eq_ok_iff.mp hfound)
  exact not_markerFree_of_reaches hu hreach hnone hfree

/-- **A function or a schema does not survive a path that is not indexed.** -/
theorem survivor?_eq_none_of_reaches (hstrict : isStrict spec.category = true)
    (hvalue : value ∈ spec.checkedValues) (hreach : Reaches index value path)
    (hnone : index.get? path = none) : index.survivor? spec = none := by
  refine Option.eq_none_iff_forall_ne_some.mpr fun resolved hresolved => ?_
  have h := survivor?_eq_some_iff.mp hresolved
  unfold resolveSpec at h
  dsimp only at h
  rw [hstrict] at h
  obtain ⟨signature, hsignature, h⟩ := Result.bind_eq_ok_iff.mp h
  obtain ⟨definition, hdefinition, h⟩ := Result.bind_eq_ok_iff.mp h
  obtain ⟨schema, hschema, -⟩ := Result.bind_eq_ok_iff.mp h
  simp only [Spec.checkedValues, List.mem_append, Option.mem_toList, Option.map_eq_some_iff]
    at hvalue
  -- whichever of the three has the value, resolving it would have to succeed
  rcases hvalue with (⟨s, hs, rfl⟩ | hv) | hv
  · rw [hs] at hsignature
    obtain ⟨_, hs, -⟩ := Result.map_eq_ok_iff.mp hsignature
    unfold resolveSignature at hs
    obtain ⟨_, hs, -⟩ := Result.bind_eq_ok_iff.mp hs
    exact resolveValue_ne_ok_of_reaches hreach hnone hs
  · rw [hv] at hdefinition
    obtain ⟨_, hv, -⟩ := Result.map_eq_ok_iff.mp hdefinition
    exact resolveValue_ne_ok_of_reaches hreach hnone hv
  · rw [hv] at hschema
    obtain ⟨_, hv, -⟩ := Result.map_eq_ok_iff.mp hschema
    exact resolveValue_ne_ok_of_reaches hreach hnone hv

/-! ## What an index answers -/

theorem schemaEntry_eq_ok_iff {entry : SchemaEntry} :
    spec.schemaEntry = .ok entry ↔ spec.category = .schema ∧
      entry = ⟨spec.id, spec.context, spec.name, spec.contextName.getD spec.qualifiedName,
        spec.definition.getD .null⟩ := by
  unfold Spec.schemaEntry Spec.requireCategory
  by_cases h : spec.category = .schema
  · simp [h, bind, Except.bind, pure, Except.pure, eq_comm]
  · simp [h, bind, Except.bind]

theorem ofSpecs_append_singleton (specs : List Spec) (spec : Spec) :
    (ofSpecs (specs ++ [spec])).get? path =
      if spec.goesBy path then some (spec.definition.getD .null)
      else (ofSpecs specs).get? path := by
  unfold ofSpecs build get?
  rw [List.filterMap_append, List.foldl_append]
  -- a spec that is no schema adds nothing, and goes by no path
  cases hentry : spec.schemaEntry with
  | error e =>
      have hother : spec.goesBy path = false := by
        refine Bool.eq_false_iff.mpr fun hgoes => ?_
        have hcategory : spec.category = .schema := by
          unfold Spec.goesBy at hgoes
          simp_all
        rw [schemaEntry_eq_ok_iff.mpr ⟨hcategory, rfl⟩] at hentry
        exact absurd hentry (by simp)
      simp [hentry, Except.toOption, hother]
  | ok entry =>
      obtain ⟨hcategory, rfl⟩ := schemaEntry_eq_ok_iff.mp hentry
      have hgoes : (path = spec.contextName.getD spec.qualifiedName) =
          (spec.goesBy path = true) := by
        simp [Spec.goesBy, hcategory, eq_comm (a := path)]
      simp only [List.filterMap_cons, List.filterMap_nil, hentry, Except.toOption, List.foldl_cons,
        List.foldl_nil, Members.get?_insert, hgoes]

/-- **The last schema that goes by a path counts.** -/
theorem get?_ofSpecs (specs : List Spec) (path : String) :
    (ofSpecs specs).get? path =
      ((specs.filter (Spec.goesBy path)).getLast?).map fun spec => spec.definition.getD .null := by
  induction specs using List.reverseRecOn with
  | nil => rfl
  | append_singleton specs spec ih =>
      rw [ofSpecs_append_singleton, List.filter_append]
      by_cases h : spec.goesBy path = true
      · simp [h]
      · rw [if_neg h, ih]
        simp [h]

end SchemaIndex

end StubGen
