import StubGen.Proofs.Result
import StubGen.Proofs.Schema.Names

/-!
# Declarations are closed and unambiguous

A name is taken before its declaration exists, and a pointer is remembered while the
declaration of its target is still being worked on. So at any moment there are names that
are taken but not yet declared, and references to them. What holds all the time is that
the books balance: the taken names are the declared ones and the ones that are due, each
of them once, and whatever is referred to is taken. Every step keeps that, and pays the
names that were due when it began: `Sound`. When the root has been declared nothing is due
any more, which is the main result, `generate_closed`.
-/

namespace StubGen.Schema

open Result

variable {α β : Type} {root : String} {due known : List String} {names : α → List String}

/-! ## The books -/

/-- The taken names are the declared ones and the open ones, and all references are to taken
names. -/
structure Accounted (root : String) (open_ : List String) (scope : Scope) : Prop where
  /-- Nothing is declared that is not taken, and what is taken is declared or open. -/
  balance : scope.taken.Perm (open_ ++ scope.declarations.map Declaration.name)
  nodup : scope.taken.Nodup
  root_mem : root ∈ scope.taken
  pointers : ∀ pointer ∈ scope.pointers, pointer.2 ∈ scope.taken
  references : ∀ d ∈ scope.declarations, d.references ⊆ scope.taken

/-- A name that is taken is open until it is declared. -/
theorem Accounted.claim {open_ : List String} {scope : Scope} {fresh : String}
    (h : Accounted root open_ scope) (hf : fresh ∉ scope.taken) :
    Accounted root (fresh :: open_) { scope with taken := fresh :: scope.taken } where
  balance := h.balance.cons fresh
  nodup := List.nodup_cons.mpr ⟨hf, h.nodup⟩
  root_mem := List.mem_cons_of_mem _ h.root_mem
  pointers pointer hm := List.mem_cons_of_mem _ (h.pointers pointer hm)
  references d hm _ hn := List.mem_cons_of_mem _ (h.references d hm hn)

/-- A declaration closes its name. -/
theorem Accounted.emit {open_ : List String} {scope : Scope} {d : Declaration}
    (h : Accounted root (d.name :: open_) scope) (hr : d.references ⊆ scope.taken) :
    Accounted root open_ { scope with declarations := scope.declarations ++ [d] } where
  balance := by
    refine h.balance.trans ?_
    rw [List.map_append, ← List.append_assoc]
    exact (List.perm_append_singleton d.name _).symm
  nodup := h.nodup
  root_mem := h.root_mem
  pointers := h.pointers
  references other hm := by
    rcases List.mem_append.mp hm with hm | hm
    · exact h.references other hm
    · rw [List.mem_singleton.mp hm]
      exact hr

theorem Accounted.bindPointer {open_ : List String} {scope : Scope} {reference name : String}
    (h : Accounted root open_ scope) (hn : name ∈ scope.taken) :
    Accounted root open_ { scope with pointers := (reference, name) :: scope.pointers } where
  balance := h.balance
  nodup := h.nodup
  root_mem := h.root_mem
  pointers pointer hm := by
    rcases List.mem_cons.mp hm with rfl | hm
    · exact hn
    · exact h.pointers pointer hm
  references := h.references

/-! ## Sound steps -/

/-- Steps that keep the books balanced. They declare the names that are `due`, may refer to names
that are `known` to be taken, and what they give refers to taken names. -/
structure Sound (root : String) (due known : List String) (names : α → List String)
    (step : Declaring α) : Prop where
  run : ∀ {open_ scope a after}, Accounted root (due ++ open_) scope → known ⊆ scope.taken →
    step scope = .ok (a, after) →
    Accounted root open_ after ∧ scope.taken ⊆ after.taken ∧ names a ⊆ after.taken

/-- Typing whatever schema under whatever name is sound. -/
def SoundTypes (root : String) (typeOf : TypeOf) : Prop :=
  ∀ schema hint, Sound root [] [] TypeExpr.references (typeOf schema hint)

theorem sound_pure {a : α} (h : names a ⊆ known) : Sound root [] known names (pure a) := by
  refine ⟨fun hacc hknown hrun => ?_⟩
  obtain ⟨rfl, rfl⟩ := Prod.mk.inj (Except.ok.inj hrun)
  exact ⟨hacc, fun _ hm => hm, List.Subset.trans h hknown⟩

theorem sound_throw (e : SchemaError) : Sound root due known names (throw e) :=
  ⟨fun _ _ hrun => nomatch hrun⟩

theorem Sound.mono {known' : List String} {step : Declaring α}
    (h : Sound root due known names step) (hk : known ⊆ known') :
    Sound root due known' names step :=
  ⟨fun hacc hknown hrun => h.run hacc (List.Subset.trans hk hknown) hrun⟩

theorem run_bind_eq_ok {x : Declaring α} {f : α → Declaring β} {scope after : Scope} {b : β}
    (h : (x >>= f) scope = .ok (b, after)) :
    ∃ a between, x scope = .ok (a, between) ∧ f a between = .ok (b, after) := by
  obtain ⟨⟨a, between⟩, hx, hf⟩ := bind_eq_ok_iff.mp h
  exact ⟨a, between, hx, hf⟩

/-- One sound step after another, which knows the names that the first one gives. -/
theorem Sound.bind {names' : β → List String} {due' : List String} {x : Declaring α}
    {f : α → Declaring β} (hx : Sound root due known names x)
    (hf : ∀ a, Sound root due' (names a ++ known) names' (f a)) :
    Sound root (due ++ due') known names' (x >>= f) := by
  refine ⟨fun hacc hknown hrun => ?_⟩
  obtain ⟨a, between, hx', hf'⟩ := run_bind_eq_ok hrun
  rw [List.append_assoc] at hacc
  obtain ⟨hacc, htaken, hnames⟩ := hx.run hacc hknown hx'
  obtain ⟨hacc, htaken', hnames'⟩ :=
    (hf a).run hacc (List.append_subset.mpr ⟨hnames, List.Subset.trans hknown htaken⟩) hf'
  exact ⟨hacc, List.Subset.trans htaken htaken', hnames'⟩

/-- A step that only computes, and may fail. -/
theorem sound_lift_bind {names' : β → List String} {x : Except SchemaError α}
    {f : α → Declaring β} (hf : ∀ a, Sound root due known names' (f a)) :
    Sound root due known names' ((x : Declaring α) >>= f) := by
  refine ⟨fun hacc hknown hrun => ?_⟩
  obtain ⟨a, between, hx, hf'⟩ := run_bind_eq_ok hrun
  obtain ⟨a', -, hx⟩ := bind_eq_ok_iff.mp hx
  obtain ⟨rfl, rfl⟩ := Prod.mk.inj (Except.ok.inj hx)
  exact (hf a').run hacc hknown hf'

/-- A claimed name is due from then on. -/
theorem sound_claim_bind {names' : β → List String} {hint : String} {f : String → Declaring β}
    (hf : ∀ name, Sound root [name] (name :: known) names' (f name)) :
    Sound root [] known names' (claim hint >>= f) := by
  refine ⟨fun {open_ scope b after} hacc hknown hrun => ?_⟩
  obtain ⟨name, between, hc, hf'⟩ := run_bind_eq_ok hrun
  obtain ⟨rfl, rfl⟩ := Prod.mk.inj (Except.ok.inj hc)
  have hclaimed := hacc.claim (freshName_not_mem scope.taken hint)
  obtain ⟨hacc, htaken, hnames⟩ :=
    (hf _).run hclaimed (List.cons_subset_cons _ hknown) hf'
  exact ⟨hacc, List.Subset.trans (List.subset_cons_self _ _) htaken, hnames⟩

theorem sound_emit {d : Declaration} (h : d.references ⊆ known) :
    Sound root [d.name] known (fun _ => []) (emit d) := by
  refine ⟨fun hacc hknown hrun => ?_⟩
  obtain ⟨-, rfl⟩ := Prod.mk.inj (Except.ok.inj hrun)
  exact ⟨hacc.emit (List.Subset.trans h hknown), fun _ hm => hm, List.nil_subset _⟩

theorem sound_bindPointer {reference name : String} (h : name ∈ known) :
    Sound root [] known (fun _ => []) (bindPointer reference name) := by
  refine ⟨fun hacc hknown hrun => ?_⟩
  obtain ⟨-, rfl⟩ := Prod.mk.inj (Except.ok.inj hrun)
  exact ⟨hacc.bindPointer (hknown h), fun _ hm => hm, List.nil_subset _⟩

theorem Sound.mapM {γ : Type} {f : γ → Declaring α} {items : List γ}
    (h : ∀ item ∈ items, Sound root [] [] names (f item)) :
    Sound root [] known (fun results => results.flatMap names) (items.mapM f) := by
  induction items generalizing known with
  | nil => exact sound_pure (List.nil_subset _)
  | cons item items ih =>
      rw [List.mapM_cons]
      have hfirst := (h item List.mem_cons_self).mono (List.nil_subset known)
      have hrest : ∀ known', Sound root [] known' (fun results => results.flatMap names)
          (items.mapM f) := fun known' => ih fun other hm => h other (List.mem_cons_of_mem _ hm)
      refine hfirst.bind fun a => (hrest _).bind fun results => sound_pure ?_
      rw [List.flatMap_cons]
      intro name hm
      rcases List.mem_append.mp hm with hm | hm <;> simp [hm]

theorem Sound.map {names' : β → List String} {f : α → β} {x : Declaring α}
    (h : Sound root due known names x) (hf : ∀ a, names' (f a) ⊆ names a) :
    Sound root due known names' (f <$> x) := by
  refine ⟨fun hacc hknown hrun => ?_⟩
  obtain ⟨a, between, hx, hf'⟩ := run_bind_eq_ok (f := fun a => pure (f a)) hrun
  obtain ⟨rfl, rfl⟩ := Prod.mk.inj (Except.ok.inj hf')
  obtain ⟨hacc, htaken, hnames⟩ := h.run hacc hknown hx
  exact ⟨hacc, htaken, List.Subset.trans (hf a) hnames⟩

/-! ## The steps of typing a schema -/

section

variable {typeOf fieldType : TypeOf} {document : Document}

theorem sound_declareRecord (h : SoundTypes root fieldType) (name : String)
    (members properties : Members) :
    Sound root [name] known (fun _ => []) (declareRecord fieldType name members properties) := by
  have hfields : Sound root [] known
      (fun fields => fields.flatMap fun field => field.type.references)
      (properties.mapM fun property => do
        let type ← fieldType property.2 (nestedName name property.1)
        return fieldOf (requiredNames members) property.1 property.2 type) :=
    .mapM fun property _ =>
      (h property.2 (nestedName name property.1)).bind fun type =>
        sound_pure (List.subset_append_left _ _)
  exact hfields.bind fun fields =>
    sound_emit (d := .record name (description? (.obj members)) fields)
      (List.subset_append_left _ _)

theorem sound_declareAs (h : SoundTypes root typeOf) (hf : SoundTypes root fieldType)
    (document : Json) (name : String) (schema : Json) :
    Sound root [name] known (fun _ => []) (declareAs document typeOf fieldType name schema) := by
  refine sound_lift_bind fun flat => ?_
  split
  · exact sound_declareRecord hf name _ _
  · exact ((h flat name).mono (List.nil_subset known)).bind fun type =>
      sound_emit (d := .alias name type) (List.subset_append_left _ _)

theorem sound_arrayType (h : SoundTypes root typeOf) (members : Members) (hint : String) :
    Sound root [] known TypeExpr.references (arrayType typeOf members hint) := by
  unfold arrayType
  split
  · refine Sound.bind (.mapM fun item _ => h item.1 _) fun types => sound_pure ?_
    rw [TypeExpr.references, TypeExpr.referencesAll_eq_flatMap]
    exact List.subset_append_left _ _
  · exact ((h _ _).mono (List.nil_subset known)).bind fun type =>
      sound_pure (List.subset_append_left _ _)
  · exact sound_pure (List.nil_subset _)

/-- A nested object is declared under the name by which it is referred to. -/
theorem sound_objectType (h : SoundTypes root typeOf) (hf : SoundTypes root fieldType)
    (members : Members) (hint : String) :
    Sound root [] known TypeExpr.references (objectType typeOf fieldType members hint) := by
  unfold objectType
  split
  · refine sound_claim_bind fun name => (sound_declareRecord hf name members _).bind fun _ => ?_
    exact sound_pure (by simp [TypeExpr.references])
  · split
    · exact ((h _ _).mono (List.nil_subset known)).bind fun type =>
        sound_pure (List.subset_append_left _ _)
    · exact sound_pure (List.nil_subset _)

/-- A new pointer names its target before the target is declared. -/
theorem sound_newPointer (h : SoundTypes root typeOf) (hf : SoundTypes root fieldType)
    (reference : String) :
    Sound root [] known TypeExpr.references (do
      let key ← (requireKey reference : Except SchemaError String)
      let schema ← (lookup document.schema reference key : Except SchemaError Json)
      let name ← claim (definitionName key)
      bindPointer reference name
      declareAs document.schema typeOf fieldType name schema
      return .ref name) := by
  refine sound_lift_bind fun key => sound_lift_bind fun schema => sound_claim_bind fun name => ?_
  have hbound := @sound_bindPointer root (name :: known) reference name List.mem_cons_self
  refine hbound.bind fun _ => ?_
  refine (sound_declareAs h hf document.schema name schema).bind fun _ => ?_
  exact sound_pure (by simp [TypeExpr.references])

theorem sound_pointerType (h : SoundTypes document.root typeOf)
    (hf : SoundTypes document.root fieldType) (reference : String) :
    Sound document.root [] known TypeExpr.references
      (pointerType document typeOf fieldType reference) := by
  refine ⟨fun {open_ scope type after} hacc hknown hrun => ?_⟩
  unfold pointerType at hrun
  by_cases hself : reference = "#"
  · rw [if_pos hself] at hrun
    obtain ⟨rfl, rfl⟩ := Prod.mk.inj (Except.ok.inj hrun)
    exact ⟨hacc, fun _ hm => hm, by simpa [TypeExpr.references] using hacc.root_mem⟩
  · rw [if_neg hself] at hrun
    obtain ⟨_, between, hget, hrun⟩ := run_bind_eq_ok hrun
    obtain ⟨rfl, rfl⟩ := Prod.mk.inj (Except.ok.inj hget)
    -- a pointer that has a name is known to the scope, and a new one is declared
    cases hlookup : scope.pointers.lookup reference with
    | some name =>
        rw [hlookup] at hrun
        obtain ⟨rfl, rfl⟩ := Prod.mk.inj (Except.ok.inj hrun)
        obtain ⟨before, behind, hmem, -⟩ := List.lookup_eq_some_iff.mp hlookup
        have := hacc.pointers (reference, name) (by simp [hmem])
        exact ⟨hacc, fun _ hm => hm, by simpa [TypeExpr.references] using this⟩
    | none =>
        rw [hlookup] at hrun
        exact (sound_newPointer h hf reference).run hacc hknown hrun

theorem sound_memberTypes (h : SoundTypes root typeOf) (schemas : List Json) (hint : String) :
    Sound root [] known (fun types => types.flatMap TypeExpr.references)
      (memberTypes typeOf schemas hint) :=
  .mapM fun schema _ => h schema.1 _

theorem sound_typedSchema (h : SoundTypes root typeOf) (hf : SoundTypes root fieldType)
    (members : Members) (hint : String) :
    Sound root [] known TypeExpr.references (typedSchema typeOf fieldType members hint) := by
  unfold typedSchema
  split
  · refine Sound.bind (.mapM fun type _ => h (.obj (members.insert "type" type)) hint)
      fun types => sound_pure ?_
    exact List.Subset.trans (TypeExpr.references_oneOf types) (List.subset_append_left _ _)
  · split
    case h_6 => exact sound_arrayType h members hint
    case h_7 => exact sound_objectType h hf members hint
    all_goals exact sound_pure (List.nil_subset _)
  · split
    · exact sound_objectType h hf members hint
    · split
      · exact sound_arrayType h members hint
      · exact sound_pure (List.nil_subset _)

theorem sound_schemaType (h : SoundTypes document.root typeOf)
    (hf : SoundTypes document.root fieldType) (schema : Json) (hint : String) :
    Sound document.root [] known TypeExpr.references
      (schemaType document typeOf fieldType schema hint) := by
  unfold schemaType
  split
  · exact sound_pure (List.nil_subset _)
  · rename_i members _
    split
    · exact sound_pointerType h hf _
    · split
      · exact sound_pure (by simp)
      · exact sound_pure (by simp)
      · exact (sound_memberTypes h _ hint).map TypeExpr.references_oneOf
      · exact (sound_memberTypes h _ hint).map TypeExpr.references_oneOf
      · exact (h _ hint).mono (List.nil_subset known)
      · exact sound_lift_bind fun merged => (h merged hint).mono (List.nil_subset known)
      · exact sound_typedSchema h hf members hint

/-- Typing a schema is sound at every depth. -/
theorem sound_typeAt (document : Document) :
    ∀ room depth, SoundTypes document.root (typeAt document room depth)
  | 0, _ => fun _ _ => sound_throw _
  | 1, _ => fun schema hint =>
    sound_schemaType (fun _ _ => sound_throw _) (fun _ _ => sound_throw _) schema hint
  | room + 2, depth => fun schema hint =>
    sound_schemaType (sound_typeAt document (room + 1) (depth + 1))
      (sound_typeAt document room (depth + 2)) schema hint

end

/-! ## Whole documents -/

/-- In the beginning the root is due, and nothing else. -/
theorem accounted_start (root : String) (pointer? : Option String) :
    Accounted root [root]
      ⟨[root], (pointer?.map fun pointer => (pointer, root)).toList, []⟩ where
  balance := .refl _
  nodup := by simp
  root_mem := List.mem_cons_self
  pointers pointer hm := by
    obtain ⟨_, _, rfl⟩ : ∃ given ∈ pointer?, (given, root) = pointer := by simpa using hm
    exact List.mem_cons_self
  references _ hm := nomatch hm

/-- The declarations for a document are what there is when its root has been declared where nothing
else is taken. -/
theorem exists_of_declarations {document : Document} {declared : List Declaration}
    (h : declarations document = .ok declared) :
    ∃ schema pointer? after, rootSchema document = .ok (schema, pointer?) ∧
      declareAs document.schema (typeAt document (document.maxDepth + 1) 0)
          (typeAt document document.maxDepth 1) document.root schema
        ⟨[document.root], (pointer?.map fun pointer => (pointer, document.root)).toList, []⟩ =
          .ok ((), after) ∧
      declared = after.declarations := by
  unfold declarations at h
  obtain ⟨⟨schema, pointer?⟩, hroot, h⟩ := bind_eq_ok_iff.mp h
  obtain ⟨⟨_, after⟩, hrun, h⟩ := bind_eq_ok_iff.mp h
  exact ⟨schema, pointer?, after, hroot, hrun, (pure_eq_ok_iff.mp h).symm⟩

/-- When the root has been declared nothing is open any more. -/
theorem accounted_declareAs {document : Document} {schema : Json} {pointer? : Option String}
    {after : Scope}
    (h : declareAs document.schema (typeAt document (document.maxDepth + 1) 0)
        (typeAt document document.maxDepth 1) document.root schema
      ⟨[document.root], (pointer?.map fun pointer => (pointer, document.root)).toList, []⟩ =
        .ok ((), after)) : Accounted document.root [] after := by
  have hsound : Sound document.root [document.root] [] (fun _ => []) _ :=
    sound_declareAs (sound_typeAt document (document.maxDepth + 1) 0)
      (sound_typeAt document document.maxDepth 1) document.schema document.root schema
  have hstart : Accounted document.root ([document.root] ++ []) _ :=
    accounted_start document.root pointer?
  exact (hsound.run hstart (List.nil_subset _) h).1

/-- Declarations of which each name is declared once and no reference goes astray. -/
structure Closed (root : String) (declarations : List Declaration) : Prop where
  /-- No name is declared twice. -/
  distinct : (declarations.map Declaration.name).Nodup
  root_once : (declarations.map Declaration.name).count root = 1
  /-- Every name that a type expression refers to is declared, so also those in quotes
  (`Declaration.forwardReferences_subset`). -/
  references : ∀ d ∈ declarations, d.references ⊆ declarations.map Declaration.name

theorem closed_declarations {document : Document} {declared : List Declaration}
    (h : declarations document = .ok declared) : Closed document.root declared := by
  obtain ⟨schema, pointer?, after, -, hrun, rfl⟩ := exists_of_declarations h
  have hacc := accounted_declareAs hrun
  -- nothing is open any more, so the taken names are the declared ones
  have hperm : after.taken.Perm (after.declarations.map Declaration.name) := hacc.balance
  have hnodup := hperm.nodup_iff.mp hacc.nodup
  refine ⟨hnodup, ?_, fun d hm => List.Subset.trans (hacc.references d hm) hperm.subset⟩
  rw [hnodup.count, if_pos (hperm.subset hacc.root_mem)]

/-- **A generated module is closed and unambiguous.** Its blocks are the texts of declarations,
each of which opens with the one name that it declares. No two declare the same name, one of them
declares the root, and every name that a type expression refers to, be it from a nested object, a
pointer into the document or a pointer to all of it, is declared by one of them. -/
theorem generate_closed {maxDepth : Nat} {schema : Json} {root source : String}
    (h : generate maxDepth schema root = .ok source) :
    ∃ blocks : List Declaration, source = Declaration.renderModule blocks ∧
      (∀ block ∈ blocks, Declaration.Opens block.name block.render) ∧ Closed root blocks := by
  obtain ⟨blocks, hb, hsource⟩ := map_eq_ok_iff.mp h
  exact ⟨blocks, hsource.symm, fun block _ => Declaration.opens_render block,
    closed_declarations hb⟩

/-- A node with a nested object, which leads back to the node, and with a definition that leads
to itself and wants the name of the nested object. -/
def knottedSchema : Json :=
  .obj [("type", .str "object"),
    ("properties", .obj
      [("owner", .obj [("properties", .obj [("node", .obj [("$ref", .str "#")])])]),
       ("next", .obj [("$ref", .str "#/definitions/_NodeOwner")])]),
    ("definitions", .obj
      [("_NodeOwner", .obj [("properties", .obj
        [("next", .obj [("$ref", .str "#/definitions/_NodeOwner")])])])])]

/-- The definition gets a name of its own, and all references find their way. -/
theorem generate_closed_knotted :
    ∃ source, generate 4 knottedSchema "Node" = .ok source ∧
      ∃ blocks : List Declaration, source = Declaration.renderModule blocks ∧
        (∀ block ∈ blocks, Declaration.Opens block.name block.render) ∧ Closed "Node" blocks := by
  have hok : (generate 4 knottedSchema "Node").toBool = true := by decide +kernel
  match h : generate 4 knottedSchema "Node" with
  | .ok source => exact ⟨source, rfl, generate_closed h⟩
  | .error _ =>
      rw [h] at hok
      exact Bool.noConfusion hok

end StubGen.Schema
