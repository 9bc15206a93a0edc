import StubGen.Proofs.Schema.Closed
import StubGen.Proofs.Schema.Depth

/-!
# What the depth limit decides

The room that is left decides whether a step reports the limit, and nothing else. Given more room,
a step that does not report it goes through the same scopes and comes to the same, be that a result
or a pointer that leads nowhere: `Upholds`. What is put together of such steps does so too, though
the depth grows by one on some ways and by two on others, and hence so does a whole document:
`generate_upheld`.
-/

namespace StubGen.Schema

open Result

variable {α β : Type} {document wider : Document}

/-! ## Steps with more room -/

/-- A chain that does not reach the limit does not begin with a step that does. -/
theorem Shallow.of_bind {x : Except SchemaError α} {f : α → Except SchemaError β}
    (h : Shallow (x >>= f)) : Shallow x :=
  fun detail hx => h detail (bind_eq_error_iff.mpr (.inl hx))

/-- A chain that does not reach the limit may go on in any way that agrees where the links do not
reach it. -/
theorem Shallow.bind_congr {x : Except SchemaError α} {f f' : α → Except SchemaError β}
    (h : Shallow (x >>= f)) (hf : ∀ a, Shallow (f a) → f' a = f a) : (x >>= f') = (x >>= f) := by
  cases x with
  | error e => rfl
  | ok a => exact hf a h

/-- Wherever the given step does not reach the limit, this one comes to the same. -/
def Upholds (step given : Declaring α) : Prop :=
  ∀ scope, Shallow (given scope) → step scope = given scope

theorem upholds_refl (step : Declaring α) : Upholds step step := fun _ _ => rfl

/-- Whatever there is upholds a step that always reaches the limit. -/
theorem upholds_tooDeep (step : Declaring α) (depth : Nat) :
    Upholds step (throw (tooDeep document depth)) :=
  fun _ h => (h _ rfl).elim

theorem Upholds.bind {x x' : Declaring α} {f f' : α → Declaring β} (hx : Upholds x' x)
    (hf : ∀ a, Upholds (f' a) (f a)) : Upholds (x' >>= f') (x >>= f) := by
  intro scope h
  change (x' scope >>= fun run => f' run.1 run.2) = (x scope >>= fun run => f run.1 run.2)
  rw [hx scope (Shallow.of_bind h)]
  exact Shallow.bind_congr h fun run => hf run.1 run.2

theorem Upholds.map {x x' : Declaring α} (h : Upholds x' x) (f : α → β) :
    Upholds (f <$> x') (f <$> x) := by
  rw [map_eq_pure_bind, map_eq_pure_bind]
  exact h.bind fun _ => upholds_refl _

theorem Upholds.mapM {f f' : α → Declaring β} (h : ∀ a, Upholds (f' a) (f a)) (items : List α) :
    Upholds (items.mapM f') (items.mapM f) := by
  induction items with
  | nil => exact upholds_refl _
  | cons a items ih =>
      rw [List.mapM_cons, List.mapM_cons]
      exact (h a).bind fun _ => ih.bind fun _ => upholds_refl _

/-! ## The steps of typing a schema -/

section

variable {typeOf typeOf' fieldType fieldType' : TypeOf}
  (hschema : wider.schema = document.schema) (hroot : wider.root = document.root)
  (ht : ∀ schema hint, Upholds (typeOf' schema hint) (typeOf schema hint))
  (hf : ∀ schema hint, Upholds (fieldType' schema hint) (fieldType schema hint))

include hf in
theorem upholds_declareRecord (name : String) (members properties : Members) :
    Upholds (declareRecord fieldType' name members properties)
      (declareRecord fieldType name members properties) :=
  Upholds.bind (.mapM (fun _ => (hf _ _).bind fun _ => upholds_refl _) properties) fun _ =>
    upholds_refl _

include ht hf in
theorem upholds_declareAs (document : Json) (name : String) (schema : Json) :
    Upholds (declareAs document typeOf' fieldType' name schema)
      (declareAs document typeOf fieldType name schema) := by
  refine (upholds_refl _).bind fun flat => ?_
  split
  · exact upholds_declareRecord hf name _ _
  · exact (ht flat name).bind fun _ => upholds_refl _

include ht in
theorem upholds_arrayType (members : Members) (hint : String) :
    Upholds (arrayType typeOf' members hint) (arrayType typeOf members hint) := by
  unfold arrayType
  split
  · exact Upholds.bind (.mapM (fun _ => ht _ _) _) fun _ => upholds_refl _
  · exact (ht _ _).bind fun _ => upholds_refl _
  · exact upholds_refl _

include ht hf in
theorem upholds_objectType (members : Members) (hint : String) :
    Upholds (objectType typeOf' fieldType' members hint)
      (objectType typeOf fieldType members hint) := by
  unfold objectType
  split
  · exact (upholds_refl _).bind fun name =>
      (upholds_declareRecord hf name members _).bind fun _ => upholds_refl _
  · split
    · exact (ht _ _).bind fun _ => upholds_refl _
    · exact upholds_refl _

include hschema hroot ht hf in
/-- A pointer that has its name already needs no room, and a new one what its target needs. -/
theorem upholds_pointerType (reference : String) :
    Upholds (pointerType wider typeOf' fieldType' reference)
      (pointerType document typeOf fieldType reference) := by
  unfold pointerType
  rw [hschema, hroot]
  split
  · exact upholds_refl _
  refine (upholds_refl _).bind fun scope => ?_
  split
  · exact upholds_refl _
  · exact (upholds_refl _).bind fun key => (upholds_refl _).bind fun schema =>
      (upholds_refl _).bind fun name => (upholds_refl _).bind fun _ =>
        (upholds_declareAs ht hf document.schema name schema).bind fun _ => upholds_refl _

include ht in
theorem upholds_union (schemas : List Json) (hint : String) :
    Upholds (TypeExpr.oneOf <$> memberTypes typeOf' schemas hint)
      (TypeExpr.oneOf <$> memberTypes typeOf schemas hint) :=
  Upholds.map (.mapM (fun _ => ht _ _) _) _

include ht hf in
theorem upholds_typedSchema (members : Members) (hint : String) :
    Upholds (typedSchema typeOf' fieldType' members hint)
      (typedSchema typeOf fieldType members hint) := by
  unfold typedSchema
  split
  · exact Upholds.bind (.mapM (fun _ => ht _ _) _) fun _ => upholds_refl _
  · split
    case h_6 => exact upholds_arrayType ht members hint
    case h_7 => exact upholds_objectType ht hf members hint
    all_goals exact upholds_refl _
  · split
    · exact upholds_objectType ht hf members hint
    · split
      · exact upholds_arrayType ht members hint
      · exact upholds_refl _

include hschema hroot ht hf in
theorem upholds_schemaType (schema : Json) (hint : String) :
    Upholds (schemaType wider typeOf' fieldType' schema hint)
      (schemaType document typeOf fieldType schema hint) := by
  unfold schemaType
  rw [hschema]
  split
  · exact upholds_refl _
  · split
    · exact upholds_pointerType hschema hroot ht hf _
    · split
      · exact upholds_refl _
      · exact upholds_refl _
      · exact upholds_union ht _ hint
      · exact upholds_union ht _ hint
      · exact ht _ hint
      · exact (upholds_refl _).bind fun merged => ht merged hint
      · exact upholds_typedSchema ht hf _ hint

end

/-- **More room upholds what less room comes to.** The limit itself is only reported, so it may be
another one. -/
theorem upholds_typeAt (hschema : wider.schema = document.schema)
    (hroot : wider.root = document.root) {room more : Nat} (hle : room ≤ more) (depth : Nat)
    (schema : Json) (hint : String) :
    Upholds (typeAt wider more depth schema hint) (typeAt document room depth schema hint) := by
  -- a level below takes one from the room, and the properties of a class take two
  induction room using Nat.strongRecOn generalizing more depth schema hint with
  | ind room ih =>
      cases room with
      | zero => exact upholds_tooDeep _ depth
      | succ room =>
          obtain ⟨more, rfl⟩ : ∃ fewer, more = fewer + 1 := ⟨more - 1, by omega⟩
          have hbelow : ∀ schema hint, Upholds (typeAt wider more (depth + 1) schema hint)
              (typeAt document room (depth + 1) schema hint) :=
            ih room (by omega) (by omega) (depth + 1)
          have hfields : ∀ schema hint, Upholds (typeAt wider (more - 1) (depth + 2) schema hint)
              (typeAt document (room - 1) (depth + 2) schema hint) :=
            ih (room - 1) (by omega) (by omega) (depth + 2)
          rw [typeAt_succ, typeAt_succ]
          exact upholds_schemaType hschema hroot hbelow hfields schema hint

/-! ## Whole documents -/

/-- Which schema the root stands for does not depend on the limit. -/
theorem rootSchema_congr (hschema : wider.schema = document.schema)
    (hroot : wider.root = document.root) : rootSchema wider = rootSchema document := by
  unfold rootSchema
  rw [hschema, hroot]

theorem declarations_upheld (hschema : wider.schema = document.schema)
    (hroot : wider.root = document.root) (hle : document.maxDepth ≤ wider.maxDepth)
    (h : Shallow (declarations document)) : declarations wider = declarations document := by
  have hdeclare := upholds_declareAs
    (upholds_typeAt hschema hroot (Nat.succ_le_succ hle) 0) (upholds_typeAt hschema hroot hle 1)
    document.schema document.root
  unfold declarations at h ⊢
  rw [rootSchema_congr hschema hroot, hschema, hroot]
  refine Shallow.bind_congr h fun found hrest => ?_
  have hrun := hdeclare found.1 _ (Shallow.of_bind hrest)
  exact congrArg (· >>= fun run => pure run.2.declarations) hrun

/-- **The depth limit decides whether there is a result, and never which.** If a document comes to
anything but a report of the limit, to a module or to a pointer that leads nowhere, then under every
higher limit it comes to the same. -/
theorem generate_upheld {limit higher : Nat} {schema : Json} {root : String}
    (hle : limit ≤ higher)
    (h : ∀ detail, generate limit schema root ≠ .error (.recursionLimit detail)) :
    generate higher schema root = generate limit schema root := by
  have hshallow : Shallow (declarations ⟨schema, root, limit⟩) :=
    fun detail hd => h detail (map_eq_error_iff.mpr hd)
  have hsame : declarations ⟨schema, root, higher⟩ = declarations ⟨schema, root, limit⟩ :=
    declarations_upheld rfl rfl hle hshallow
  unfold generate
  rw [hsame]

/-- A node that leads back to itself in two ways needs four levels, and no more change anything. -/
theorem generate_upheld_knotted : 4 ≤ 48 ∧
    (∀ detail, generate 4 knottedSchema "Node" ≠ .error (.recursionLimit detail)) ∧
    generate 48 knottedSchema "Node" = generate 4 knottedSchema "Node" := by
  have hok : (generate 4 knottedSchema "Node").toBool = true := by decide +kernel
  have hlimit : ∀ detail, generate 4 knottedSchema "Node" ≠ .error (.recursionLimit detail) := by
    intro detail h
    rw [h] at hok
    exact Bool.noConfusion hok
  exact ⟨by decide, hlimit, generate_upheld (by decide) hlimit⟩

end StubGen.Schema
