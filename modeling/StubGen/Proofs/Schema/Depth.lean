import StubGen.Proofs.Schema.Composition
import StubGen.Proofs.Schema.Nesting

/-!
# How deep a document goes

A declaring step that has room enough does not report the limit. How much room a schema needs
is found by two inductions, one inside the other. What is nested in the schema needs less than the
schema does, if nothing is nested in itself. And a pointer uses up itself: when its target is
typed the pointer has its name, so that fewer pointers of the document are free from then on.
-/

namespace StubGen.Schema

open Json Result Relation

variable {α β : Type} {document : Json} {free : Nat}

/-! ## Steps that do not reach the limit -/

/-- A failure for another reason than the depth, or none. -/
def Shallow (result : Except SchemaError α) : Prop :=
  ∀ detail, result ≠ .error (.recursionLimit detail)

theorem shallow_ok (a : α) : Shallow (.ok a) := fun _ h => nomatch h

theorem Shallow.bind {x : Except SchemaError α} {f : α → Except SchemaError β} (hx : Shallow x)
    (hf : ∀ a, x = .ok a → Shallow (f a)) : Shallow (x >>= f) := by
  intro detail h
  rcases bind_eq_error_iff.mp h with h | ⟨a, ha, h⟩
  · exact hx detail h
  · exact hf a ha detail h

theorem shallow_requireKey (reference : String) : Shallow (requireKey reference) := by
  unfold requireKey
  split <;> simp [Shallow]

theorem shallow_lookup (document : Json) (reference key : String) :
    Shallow (lookup document reference key) := by
  unfold lookup
  split <;> simp [Shallow]

theorem shallow_mergeParts (document : Json) (parts : List Json) :
    Shallow (mergeParts document parts) := by
  refine Shallow.bind (fun detail h => ?_) fun _ _ => shallow_ok _
  obtain ⟨part, -, h⟩ := mapM_eq_error h
  rw [resolvePart_eq] at h
  split at h
  · exact (shallow_requireKey _).bind (fun key _ => shallow_lookup _ _ key) detail h
  · exact nomatch h

theorem shallow_flattenAllOf (document schema : Json) :
    Shallow (flattenAllOf document schema) := by
  cases schema with
  | obj members =>
      rw [flattenAllOf_obj]
      split
      · exact shallow_flattenAllOf document _
      · exact shallow_mergeParts document _
      · exact shallow_ok _
  | _ => exact shallow_ok _
termination_by sizeOf schema
decreasing_by exact sizeOf_part ‹_›

theorem shallow_rootSchema (document : Document) : Shallow (rootSchema document) := by
  unfold rootSchema
  split
  · exact shallow_ok _
  · split
    · exact shallow_ok _
    · split
      · exact (shallow_lookup _ _ _).bind fun _ _ => shallow_ok _
      · exact shallow_ok _

/-! ## Steps that last -/

/-- The pointers of a document that have no name yet. -/
def unbound (document : Json) (scope : Scope) : Set Json :=
  {value | Within value document ∧
    ∃ reference, value = .str reference ∧ scope.pointers.lookup reference = none}

theorem finite_unbound (document : Json) (scope : Scope) : (unbound document scope).Finite :=
  (finite_within document).subset fun _ h => h.1

/-- A step that does not reach the limit as long as at most `free` pointers have no name, and
frees none. -/
structure Lasts (document : Json) (free : Nat) (step : Declaring α) : Prop where
  run : ∀ {scope}, (unbound document scope).ncard ≤ free → Shallow (step scope) ∧
    ∀ {a after}, step scope = .ok (a, after) → (unbound document after).ncard ≤ free

theorem lasts_pure (a : α) : Lasts document free (pure a) := by
  refine ⟨fun hfree => ⟨shallow_ok _, fun {b after} hrun => ?_⟩⟩
  obtain ⟨-, rfl⟩ := Prod.mk.inj (Except.ok.inj hrun)
  exact hfree

theorem Lasts.bind {x : Declaring α} {f : α → Declaring β} (hx : Lasts document free x)
    (hf : ∀ a, Lasts document free (f a)) : Lasts document free (x >>= f) := by
  refine ⟨fun {scope} hfree => ?_⟩
  obtain ⟨hshallow, hkeeps⟩ := hx.run hfree
  refine ⟨hshallow.bind fun ⟨a, between⟩ ha => ((hf a).run (hkeeps ha)).1, fun hrun => ?_⟩
  obtain ⟨⟨a, between⟩, ha, hrun⟩ := bind_eq_ok_iff.mp hrun
  exact ((hf a).run (hkeeps ha)).2 hrun

theorem Lasts.map {f : α → β} {x : Declaring α} (h : Lasts document free x) :
    Lasts document free (f <$> x) := by
  rw [map_eq_pure_bind]
  exact h.bind fun _ => lasts_pure _

/-- A step that only computes. -/
theorem lasts_lift_bind {x : Except SchemaError α} {f : α → Declaring β} (hx : Shallow x)
    (hf : ∀ a, x = .ok a → Lasts document free (f a)) :
    Lasts document free ((x : Declaring α) >>= f) := by
  cases x with
  | error e =>
      have herror : ∀ detail, e ≠ .recursionLimit detail :=
        fun detail h => hx detail (congrArg _ h)
      exact ⟨fun _ => ⟨fun detail h => herror detail (Except.error.inj h), fun h => nomatch h⟩⟩
  | ok a => exact hf a rfl

theorem lasts_claim (name : String) : Lasts document free (claim name) := by
  refine ⟨fun hfree => ⟨shallow_ok _, fun {a after} hrun => ?_⟩⟩
  obtain ⟨-, rfl⟩ := Prod.mk.inj (Except.ok.inj hrun)
  exact hfree

theorem lasts_emit (declaration : Declaration) : Lasts document free (emit declaration) := by
  refine ⟨fun hfree => ⟨shallow_ok _, fun {a after} hrun => ?_⟩⟩
  obtain ⟨-, rfl⟩ := Prod.mk.inj (Except.ok.inj hrun)
  exact hfree

theorem Lasts.mapM {f : α → Declaring β} {items : List α}
    (h : ∀ item ∈ items, Lasts document free (f item)) : Lasts document free (items.mapM f) := by
  induction items with
  | nil => exact lasts_pure _
  | cons item items ih =>
      rw [List.mapM_cons]
      have hrest := ih fun other hm => h other (List.mem_cons_of_mem _ hm)
      exact (h item List.mem_cons_self).bind fun _ => hrest.bind fun _ => lasts_pure _

/-- A pointer that gets its name is free no more. -/
theorem ncard_unbound_lt {reference name : String} {scope after : Scope}
    (hw : Within (.str reference) document) (hnew : scope.pointers.lookup reference = none)
    (hafter : after.pointers = (reference, name) :: scope.pointers) :
    (unbound document after).ncard < (unbound document scope).ncard := by
  refine Set.ncard_lt_ncard ⟨?_, fun hsubset => ?_⟩ (finite_unbound document scope)
  · rintro value ⟨hv, other, rfl, hlookup⟩
    rw [hafter, List.lookup_cons] at hlookup
    split at hlookup
    · exact nomatch hlookup
    · exact ⟨hv, other, rfl, hlookup⟩
  · obtain ⟨-, other, heq, hlookup⟩ := hsubset ⟨hw, reference, rfl, hnew⟩
    rw [hafter, ← Json.str.inj heq, List.lookup_cons_self] at hlookup
    exact nomatch hlookup

/-! ## The steps of typing a schema -/

section

variable {typeOf fieldType : TypeOf}

/-- Typing a schema lasts, as one of the levels below and as a property. -/
def LastsBoth (document : Json) (free : Nat) (typeOf fieldType : TypeOf) (schema : Json) : Prop :=
  ∀ hint, Lasts document free (typeOf schema hint) ∧ Lasts document free (fieldType schema hint)

theorem mem_declaredIn {schema flat : Json} (h : flattenAllOf document schema = .ok flat) :
    (∀ properties, flat.obj?.bind objectProperties? = some properties →
      ∀ inner ∈ properties.map Prod.snd, inner ∈ declaredIn document schema) ∧
    (flat.obj?.bind objectProperties? = none → flat ∈ declaredIn document schema) := by
  rw [declaredIn, h]
  refine ⟨fun properties hp inner hm => ?_, fun hp => ?_⟩
  · dsimp only
    rw [hp]
    exact hm
  · dsimp only
    rw [hp]
    exact List.mem_singleton.mpr rfl

theorem lasts_declareRecord {properties : Members}
    (h : ∀ inner ∈ properties.map Prod.snd, LastsBoth document free typeOf fieldType inner)
    (name : String) (members : Members) :
    Lasts document free (declareRecord fieldType name members properties) := by
  refine Lasts.bind (.mapM fun property hm => ?_) fun fields => lasts_emit _
  exact (h property.2 (List.mem_map_of_mem hm) _).2.bind fun _ => lasts_pure _

theorem lasts_declareAs {schema : Json}
    (h : ∀ inner ∈ declaredIn document schema, LastsBoth document free typeOf fieldType inner)
    (name : String) : Lasts document free (declareAs document typeOf fieldType name schema) := by
  refine lasts_lift_bind (shallow_flattenAllOf document schema) fun flat hflat => ?_
  have hdeclared := mem_declaredIn hflat
  split
  · rename_i members properties hobj hproperties
    rw [hproperties] at hdeclared
    exact lasts_declareRecord (fun inner hm => h inner (hdeclared.1 _ rfl inner hm)) name members
  · rename_i hnone
    have hmem : flat ∈ declaredIn document schema := by
      refine hdeclared.2 ?_
      cases hp : flat.obj?.bind objectProperties? with
      | none => rfl
      | some properties =>
          obtain ⟨members, hobj, -⟩ := Option.bind_eq_some_iff.mp hp
          exact (hnone members properties hobj hp).elim
    exact (h flat hmem name).1.bind fun _ => lasts_emit _

theorem lasts_arrayType {members : Members}
    (h : ∀ inner ∈ nestedInArray members, LastsBoth document free typeOf fieldType inner)
    (hint : String) : Lasts document free (arrayType typeOf members hint) := by
  unfold arrayType
  unfold nestedInArray at h
  split
  · rename_i items hitems
    rw [hitems] at h
    refine Lasts.bind (.mapM fun item hm => ?_) fun _ => lasts_pure _
    exact (h item.1 (List.fst_mem_of_mem_zipIdx hm) _).1
  · rename_i item hother hitem
    rw [hitem] at h
    cases item with
    | arr items => exact (hother items rfl).elim
    | _ => exact (h _ List.mem_cons_self _).1.bind fun _ => lasts_pure _
  · exact lasts_pure _

theorem lasts_objectType {members : Members}
    (h : ∀ inner ∈ nestedInObject members, LastsBoth document free typeOf fieldType inner)
    (hint : String) : Lasts document free (objectType typeOf fieldType members hint) := by
  unfold objectType
  unfold nestedInObject at h
  split
  · rename_i properties hproperties
    rw [hproperties] at h
    exact (lasts_claim hint).bind fun name =>
      (lasts_declareRecord h name members).bind fun _ => lasts_pure _
  · rename_i hnone
    rw [hnone] at h
    split
    · rename_i schema hvalue
      rw [hvalue] at h
      exact (h schema List.mem_cons_self _).1.bind fun _ => lasts_pure _
    · exact lasts_pure _

theorem lasts_memberTypes {schemas : List Json}
    (h : ∀ inner ∈ schemas, LastsBoth document free typeOf fieldType inner) (hint : String) :
    Lasts document free (memberTypes typeOf schemas hint) :=
  .mapM fun schema hm => (h schema.1 (List.fst_mem_of_mem_zipIdx hm) _).1

theorem lasts_typedSchema {members : Members}
    (h : ∀ inner ∈ nestedInTyped members, LastsBoth document free typeOf fieldType inner)
    (hint : String) : Lasts document free (typedSchema typeOf fieldType members hint) := by
  unfold typedSchema
  split
  · rename_i types htypes
    rw [nestedInTyped, htypes] at h
    refine Lasts.bind (.mapM fun type hm => ?_) fun _ => lasts_pure _
    exact (h _ (List.mem_map_of_mem hm) hint).1
  · rename_i type htype
    rw [nestedInTyped, htype] at h
    dsimp only at h
    split
    case h_6 => exact lasts_arrayType h hint
    case h_7 => exact lasts_objectType h hint
    all_goals exact lasts_pure _
  · rename_i hnotArr hnotStr
    -- what is neither one type nor several is told by its properties or its items
    have hrest : nestedInTyped members =
        if members.hasKey "properties" then nestedInObject members
        else if members.hasKey "items" then nestedInArray members else [] := by
      unfold nestedInTyped
      split
      · rename_i types htypes
        exact (hnotArr types htypes).elim
      · rename_i type htype
        exact (hnotStr type htype).elim
      · rfl
    rw [hrest] at h
    split
    · rw [if_pos ‹_›] at h
      exact lasts_objectType h hint
    · rw [if_neg ‹_›] at h
      split
      · rw [if_pos ‹_›] at h
        exact lasts_arrayType h hint
      · exact lasts_pure _

/-- A pointer without a name uses up itself before its target is typed. -/
theorem lasts_pointerType {document : Document} {reference : String}
    (hw : Within (.str reference) document.schema)
    (h : ∀ fewer, free = fewer + 1 → ∀ schema, target document.schema reference = .ok schema →
      ∀ inner ∈ declaredIn document.schema schema,
        LastsBoth document.schema fewer typeOf fieldType inner) :
    Lasts document.schema free (pointerType document typeOf fieldType reference) := by
  refine ⟨fun {scope} hfree => ?_⟩
  rw [run_pointerType]
  split
  · exact (lasts_pure _).run hfree
  split
  · exact (lasts_pure _).run hfree
  rename_i hnew
  have hlt : ∀ name, (unbound document.schema (scope.naming reference name)).ncard <
      (unbound document.schema scope).ncard := fun name => ncard_unbound_lt hw hnew rfl
  -- naming the pointer leaves one less that is free
  obtain ⟨fewer, rfl⟩ : ∃ fewer, free = fewer + 1 :=
    Nat.exists_eq_succ_of_ne_zero (by have := hlt ""; omega)
  have hdeclare : ∀ {key schema}, requireKey reference = .ok key →
      lookup document.schema reference key = .ok schema → ∀ name,
        Lasts document.schema fewer (declareAs document.schema typeOf fieldType name schema) :=
    fun hk hl name => lasts_declareAs (h fewer rfl _ (bind_eq_ok_iff.mpr ⟨_, hk, hl⟩)) name
  have hbound : ∀ name, (unbound document.schema (scope.naming reference name)).ncard ≤ fewer :=
    fun name => by have := hlt name; omega
  refine ⟨(shallow_requireKey _).bind fun key hk => (shallow_lookup _ _ _).bind fun schema hl =>
    ((hdeclare hk hl _).run (hbound _)).1.bind fun _ _ => shallow_ok _, fun hrun => ?_⟩
  obtain ⟨key, hk, hrun⟩ := bind_eq_ok_iff.mp hrun
  obtain ⟨schema, hl, hrun⟩ := bind_eq_ok_iff.mp hrun
  obtain ⟨⟨_, after⟩, hd, hrun⟩ := bind_eq_ok_iff.mp hrun
  obtain ⟨-, rfl⟩ := Prod.mk.inj (pure_eq_ok_iff.mp hrun)
  exact Nat.le_succ_of_le (((hdeclare hk hl _).run (hbound _)).2 hd)

theorem lasts_schemaType {document : Document} {schema : Json}
    (hp : ∀ reference, schema.getStr? "$ref" = some reference →
      Lasts document.schema free (pointerType document typeOf fieldType reference))
    (h : ∀ inner ∈ nested document.schema schema,
      LastsBoth document.schema free typeOf fieldType inner) (hint : String) :
    Lasts document.schema free (schemaType document typeOf fieldType schema hint) := by
  unfold schemaType
  unfold nested at h
  -- each case of the schema has its own schemas inside, which `nested` lists
  split
  · exact lasts_pure _
  rename_i members hobj
  rw [hobj] at h
  dsimp only at h
  split
  · exact hp _ ‹_›
  rename_i hnone
  rw [hnone] at h
  dsimp only at h
  split
  · exact lasts_pure _
  · exact lasts_pure _
  · rename_i schemas hc he ha
    rw [hc, he, ha] at h
    exact (lasts_memberTypes h hint).map
  · rename_i schemas hc he ha ho
    rw [hc, he, ha, ho] at h
    exact (lasts_memberTypes h hint).map
  · rename_i part hc he ha ho hparts
    rw [hc, he, ha, ho, hparts] at h
    exact (h part List.mem_cons_self hint).1
  · rename_i parts hseveral hc he ha ho hparts
    rw [hc, he, ha, ho, hparts] at h
    refine lasts_lift_bind (shallow_mergeParts _ _) fun merged hm => ?_
    have hmem : merged ∈ nestedInParts document.schema parts := by
      unfold nestedInParts
      split
      · exact (hseveral _ rfl).elim
      · rw [hm]
        exact List.mem_singleton.mpr rfl
    exact (h merged hmem hint).1
  · rename_i hc he ha ho hparts
    rw [hc, he, ha, ho, hparts] at h
    exact lasts_typedSchema h hint

end

/-! ## Enough room -/

/-- With some room or more, typing a schema does not reach the limit while at most `free` pointers
have no name. -/
def Settles (document : Json) (root : String) (free : Nat) (schema : Json) : Prop :=
  ∃ least, ∀ maxDepth room depth hint, least ≤ room →
    Lasts document free (typeAt ⟨document, root, maxDepth⟩ room depth schema hint)

/-- Room that is enough for each of some schemas. -/
theorem exists_room {root : String} {schemas : List Json}
    (h : ∀ schema ∈ schemas, Settles document root free schema) :
    ∃ least, ∀ schema ∈ schemas, ∀ maxDepth room depth hint, least ≤ room →
      Lasts document free (typeAt ⟨document, root, maxDepth⟩ room depth schema hint) := by
  induction schemas with
  | nil => exact ⟨0, nofun⟩
  | cons schema schemas ih =>
      obtain ⟨least, hfirst⟩ := h schema List.mem_cons_self
      obtain ⟨least', hrest⟩ := ih fun other hm => h other (List.mem_cons_of_mem _ hm)
      refine ⟨max least least', fun other hm maxDepth room depth hint hroom => ?_⟩
      rcases List.mem_cons.mp hm with rfl | hm
      · exact hfirst maxDepth room depth hint (by omega)
      · exact hrest other hm maxDepth room depth hint (by omega)

/-- Room that is enough for all that the target of a pointer declares, with one pointer less
free. -/
theorem exists_room_target {root : String} (reference? : Option String)
    (h : ∀ fewer, free = fewer + 1 → ∀ reference, reference? = some reference →
      ∀ next, target document reference = .ok next →
      ∀ inner ∈ declaredIn document next, Settles document root fewer inner) :
    ∃ least, ∀ fewer, free = fewer + 1 → ∀ reference, reference? = some reference →
      ∀ next, target document reference = .ok next →
      ∀ inner ∈ declaredIn document next, ∀ maxDepth room depth hint, least ≤ room →
        Lasts document fewer (typeAt ⟨document, root, maxDepth⟩ room depth inner hint) := by
  -- without a pointer that is free, or without a target, no room is needed
  cases free with
  | zero => exact ⟨0, nofun⟩
  | succ fewer =>
      cases reference? with
      | none => exact ⟨0, nofun⟩
      | some reference =>
          cases ht : target document reference with
          | error e =>
              refine ⟨0, fun _ _ _ hr next ht' => ?_⟩
              rw [← Option.some.inj hr, ht] at ht'
              exact nomatch ht'
          | ok next =>
              obtain ⟨least, hroom⟩ := exists_room (h fewer rfl reference rfl next ht)
              refine ⟨least, fun other hf other' hr next' ht' => ?_⟩
              obtain rfl := Nat.succ.inj hf
              rw [← Option.some.inj hr, ht] at ht'
              exact Except.ok.inj ht' ▸ hroom

/-- A schema needs two levels more than what is nested in it and what its pointer leads to. -/
theorem lasts_typeAt (document : Document) {schema : Json} {least : Nat}
    (hown : ∀ reference, schema.getStr? "$ref" = some reference →
      Within (.str reference) document.schema)
    (hp : ∀ fewer, free = fewer + 1 → ∀ reference, schema.getStr? "$ref" = some reference →
      ∀ next, target document.schema reference = .ok next →
      ∀ inner ∈ declaredIn document.schema next, ∀ room depth hint, least ≤ room →
        Lasts document.schema fewer (typeAt document room depth inner hint))
    (hn : ∀ inner ∈ nested document.schema schema, ∀ room depth hint, least ≤ room →
      Lasts document.schema free (typeAt document room depth inner hint))
    (room depth : Nat) (hint : String) (hroom : least + 2 ≤ room) :
    Lasts document.schema free (typeAt document room depth schema hint) := by
  obtain ⟨room, rfl⟩ : ∃ r, room = r + 2 := ⟨room - 2, by omega⟩
  have hone : least ≤ room + 1 := by omega
  have htwo : least ≤ room := by omega
  refine lasts_schemaType (fun reference hr => lasts_pointerType (hown reference hr) ?_)
    (fun inner hm hint => ⟨hn inner hm _ _ _ hone, hn inner hm _ _ _ htwo⟩) hint
  exact fun fewer hf next ht inner hm hint =>
    ⟨hp fewer hf reference hr next ht inner hm _ _ _ hone,
      hp fewer hf reference hr next ht inner hm _ _ _ htwo⟩

theorem within_pointer {schema : Json} {reference : String}
    (h : Bears (fun m => Within m.2 document) schema)
    (hr : schema.getStr? "$ref" = some reference) : Within (.str reference) document := by
  cases schema with
  | obj members =>
      obtain ⟨value, hv, hstr⟩ := Option.bind_eq_some_iff.mp hr
      cases value with
      | str text =>
          rw [← Option.some.inj hstr]
          exact h members .here _ (Members.mem_of_get? hv) (.inl rfl)
      | _ => simp [str?] at hstr
  | _ => simp [Json.getStr?, Json.get?] at hr

/-- **All that is met settles,** however many pointers are free. -/
theorem settles_of_met {root : String}
    (hacyclic : ∀ schema, Met document root schema → ¬ TransGen (Nests document) schema schema)
    {schema : Json} (hmet : Met document root schema) : Settles document root free schema := by
  have hown : Bears (fun m => Within m.2 document) document :=
    fun members hw m hm _ => .trans (.member hm .here) hw
  induction free using Nat.strongRecOn generalizing schema with
  | ind free ihf =>
      induction acc_nests hacyclic hmet with
      | intro schema _ ihn =>
          obtain ⟨least, hn⟩ := exists_room fun inner hin => ihn inner hin (.nested hmet hin)
          obtain ⟨least', hp⟩ := exists_room_target (schema.getStr? "$ref")
            fun fewer (hf : free = fewer + 1) reference hr next ht inner hin =>
              ihf fewer (by omega) (.pointer hmet hr ht hin)
          refine ⟨max least least' + 2, fun maxDepth => ?_⟩
          refine lasts_typeAt ⟨document, root, maxDepth⟩ ?_ ?_ ?_
          · exact fun reference hr => within_pointer ((hereditary_bears _).met hown hmet) hr
          · exact fun fewer hf reference hr next ht inner hin room depth hint hroom =>
              hp fewer hf reference hr next ht inner hin _ _ _ _ (by omega)
          · exact fun inner hin room depth hint hroom => hn inner hin _ _ _ _ (by omega)

/-- Room that is enough for the declaration of the root. -/
theorem exists_room_root {root : String} (free : Nat)
    (h : ∀ schema, Met document root schema → ¬ TransGen (Nests document) schema schema) :
    ∃ least, ∀ schema pointer?, rootSchema ⟨document, root, 0⟩ = .ok (schema, pointer?) →
      ∀ inner ∈ declaredIn document schema, ∀ maxDepth room depth hint, least ≤ room →
        Lasts document free (typeAt ⟨document, root, maxDepth⟩ room depth inner hint) := by
  cases hroot : rootSchema ⟨document, root, 0⟩ with
  | error e => exact ⟨0, nofun⟩
  | ok found =>
      obtain ⟨least, hroom⟩ := exists_room fun inner hin => settles_of_met h (.root hroot hin)
      refine ⟨least, fun schema pointer? heq => ?_⟩
      obtain rfl := Except.ok.inj heq
      exact hroom

/-- **Generation needs only so much depth.** A document in which nothing is nested in itself, be it
recursive by way of pointers or not, has a limit from which on no larger one is reached. -/
theorem generate_settles {root : String}
    (h : ∀ schema, Met document root schema → ¬ TransGen (Nests document) schema schema) :
    ∃ limit, ∀ maxDepth, limit ≤ maxDepth → ∀ detail,
      generate maxDepth document root ≠ .error (.recursionLimit detail) := by
  obtain ⟨limit, hroom⟩ := exists_room_root {v | Within v document}.ncard h
  refine ⟨limit, fun maxDepth hlimit => ?_⟩
  have hfree : ∀ scope, (unbound document scope).ncard ≤ {v | Within v document}.ncard :=
    fun scope => Set.ncard_le_ncard (fun _ hv => hv.1) (finite_within document)
  have hshallow : Shallow (declarations ⟨document, root, maxDepth⟩) := by
    refine (shallow_rootSchema _).bind fun ⟨schema, pointer?⟩ hroot => ?_
    refine Shallow.bind (Lasts.run (lasts_declareAs ?_ root) (hfree _)).1 fun _ _ => shallow_ok _
    exact fun inner hin hint =>
      ⟨hroom schema pointer? hroot inner hin _ _ _ _ (Nat.le_succ_of_le hlimit),
      hroom schema pointer? hroot inner hin _ _ _ _ hlimit⟩
  exact fun detail hg => hshallow detail (map_eq_error_iff.mp hg)

/-- A tree whose nodes lead to nodes through a single part, a union, items and values, with a merge
of two plain parts at its root. -/
def treeSchema : Json :=
  .obj [("properties", .obj
      [("top", .obj [("allOf", .arr [.obj [("$ref", .str "#/definitions/Node")]])]),
        ("owner", .obj [("allOf", .arr
          [.obj [("properties", .obj [("name", .obj [("type", .str "string")])])],
            .obj [("required", .arr [.str "name"])]])])]),
    ("definitions", .obj [("Node", .obj [("properties", .obj
      [("next", .obj [("anyOf", .arr
          [.obj [("$ref", .str "#/definitions/Node")], .obj [("type", .str "null")]])]),
        ("children", .obj [("items", .obj [("$ref", .str "#/definitions/Node")])]),
        ("named", .obj [("type", .str "object"),
          ("additionalProperties", .obj [("$ref", .str "#/definitions/Node")])]),
        ("tree", .obj [("$ref", .str "#")])])])])]

theorem plain_treeSchema : Bears PlainMerge treeSchema := by
  simp [treeSchema, PlainMerge, Json.getStr?, Json.get?, Members.get?_cons, Members.get?_nil]

/-- There is a limit for the tree. -/
theorem generate_settles_tree :
    (∀ schema, Met treeSchema "Tree" schema →
      ¬ TransGen (Nests treeSchema) schema schema) ∧
    ∃ limit, ∀ maxDepth, limit ≤ maxDepth → ∀ detail,
      generate maxDepth treeSchema "Tree" ≠ .error (.recursionLimit detail) :=
  ⟨fun _ => acyclic_of_plain plain_treeSchema,
    generate_settles fun _ => acyclic_of_plain plain_treeSchema⟩

/-! ## A merge nested in itself -/

/-- What is behind a node of a chain: a node, of which something more is said. -/
def chainLink : Json :=
  .obj [("allOf", .arr
    [.obj [("$ref", .str "#/definitions/Node")], .obj [("description", .str "The node behind.")]])]

/-- A chain of nodes. -/
def chainSchema : Json :=
  .obj [("$ref", .str "#/definitions/Node"),
    ("definitions", .obj [("Node", .obj [("properties", .obj [("next", chainLink)])])])]

/-- The link with its parts merged has the link in it. -/
def mergedLink : Json :=
  .obj [("type", .str "object"), ("properties", .obj [("next", chainLink)]), ("required", .arr [])]

theorem requireKey_node : requireKey "#/definitions/Node" = .ok "Node" := by
  unfold requireKey
  rw [show definitionKey? "#/definitions/Node" = some "Node" by decide]

theorem mergeParts_chain :
    mergeParts chainSchema [.obj [("$ref", .str "#/definitions/Node")],
      .obj [("description", .str "The node behind.")]] = .ok mergedLink := by
  have h : resolvePart chainSchema (.obj [("$ref", .str "#/definitions/Node")]) =
      .ok (.obj [("properties", .obj [("next", chainLink)])]) := by
    change target chainSchema "#/definitions/Node" = _
    rw [target, requireKey_node]
    rfl
  simp only [mergeParts, List.mapM_cons, h]
  rfl

/-- Whatever room there is, typing a step reaches the limit. -/
def Sinks (step : Declaring α) : Prop :=
  ∀ scope, ∃ detail, step scope = .error (.recursionLimit detail)

theorem Sinks.bind {x : Declaring α} (h : Sinks x) (f : α → Declaring β) : Sinks (x >>= f) := by
  intro scope
  obtain ⟨detail, hd⟩ := h scope
  exact ⟨detail, bind_eq_error_iff.mpr (.inl hd)⟩

variable {typeOf fieldType : TypeOf} {maxDepth : Nat}

theorem sinks_chainLink (h : ∀ hint, Sinks (typeOf mergedLink hint)) (hint : String) :
    Sinks (schemaType ⟨chainSchema, "Node", maxDepth⟩ typeOf fieldType chainLink hint) := by
  have heq : schemaType ⟨chainSchema, "Node", maxDepth⟩ typeOf fieldType chainLink hint =
      typeOf mergedLink hint := by
    change (do
      let merged ← (mergeParts chainSchema _ : Except SchemaError Json)
      typeOf merged hint : Declaring TypeExpr) = _
    rw [mergeParts_chain]
    rfl
  exact heq ▸ h hint

theorem sinks_declareRecord (h : ∀ hint, Sinks (fieldType chainLink hint)) (name : String)
    (members : Members) :
    Sinks (declareRecord fieldType name members [("next", chainLink)]) := by
  dsimp only [declareRecord]
  rw [List.mapM_cons]
  exact (((h _).bind _).bind _).bind _

theorem sinks_mergedLink (h : ∀ hint, Sinks (fieldType chainLink hint)) (hint : String) :
    Sinks (schemaType ⟨chainSchema, "Node", maxDepth⟩ typeOf fieldType mergedLink hint) := by
  have hclaim : ∀ f : String → Declaring TypeExpr, (∀ name, Sinks (f name)) →
      Sinks (claim hint >>= f) := fun f hf scope => hf _ _
  exact hclaim _ fun name => (sinks_declareRecord h name _).bind _

theorem sinks_typeAt (maxDepth room depth : Nat) :
    (∀ hint, Sinks (typeAt ⟨chainSchema, "Node", maxDepth⟩ room depth chainLink hint)) ∧
      ∀ hint, Sinks (typeAt ⟨chainSchema, "Node", maxDepth⟩ room depth mergedLink hint) := by
  induction room using Nat.strongRecOn generalizing depth with
  | ind room ih =>
      match room with
      | 0 => exact ⟨fun _ _ => ⟨_, rfl⟩, fun _ _ => ⟨_, rfl⟩⟩
      | 1 => exact ⟨sinks_chainLink fun _ _ => ⟨_, rfl⟩, sinks_mergedLink fun _ _ => ⟨_, rfl⟩⟩
      | room + 2 =>
          exact ⟨sinks_chainLink (ih (room + 1) (by omega) _).2,
            sinks_mergedLink (ih room (by omega) _).1⟩

/-- **A merge nested in itself has no end.** The link of the chain is merged from the node that has
the link in it, and whatever the limit is, it is reached. -/
theorem generate_sinks_chain :
    ¬ ∃ limit, ∀ maxDepth, limit ≤ maxDepth → ∀ detail,
      generate maxDepth chainSchema "Node" ≠ .error (.recursionLimit detail) := by
  rintro ⟨limit, h⟩
  have hroot : rootSchema ⟨chainSchema, "Node", limit⟩ =
      .ok (.obj [("properties", .obj [("next", chainLink)])], some "#/definitions/Node") := by
    unfold rootSchema
    rw [show Json.getStr? chainSchema "$ref" = some "#/definitions/Node" from rfl]
    dsimp only
    rw [show definitionKey? "#/definitions/Node" = some "Node" by decide]
    dsimp only
    rw [if_pos (by decide)]
    rfl
  have hrecord := sinks_declareRecord (sinks_typeAt limit limit 1).1 "Node"
    [("properties", .obj [("next", chainLink)])]
  obtain ⟨detail, hd⟩ := hrecord
    { taken := ["Node"], pointers := [("#/definitions/Node", "Node")], declarations := [] }
  refine h limit (Nat.le_refl _) detail (map_eq_error_iff.mpr ?_)
  rw [declarations, hroot]
  exact bind_eq_error_iff.mpr (.inr ⟨_, rfl, bind_eq_error_iff.mpr (.inl hd)⟩)

end StubGen.Schema
