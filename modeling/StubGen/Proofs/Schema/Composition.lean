import StubGen.Proofs.Result
import StubGen.Schema.Declarations

/-!
# What typing a schema is put together of

A schema is typed by claiming names, by declaring what is finished and by following pointers, one
after another. So a property of steps that these have, and that goes from steps to what is put
together of them, is one of typing any schema at any depth: `Compositional`.
-/

namespace StubGen.Schema

open Result

variable {α β : Type} {document : Document} {typeOf fieldType : TypeOf}

theorem lift_ok_bind (a : α) (f : α → Declaring β) :
    ((Except.ok a : Except SchemaError α) : Declaring α) >>= f = f a := rfl

/-! ## Pointers -/

/-- The schema that a pointer leads to. -/
def target (document : Json) (reference : String) : Except SchemaError Json := do
  let key ← requireKey reference
  lookup document reference key

/-- A scope in which a name is taken for a pointer. -/
def Scope.naming (scope : Scope) (reference name : String) : Scope :=
  { scope with taken := name :: scope.taken, pointers := (reference, name) :: scope.pointers }

/-- A pointer that has no name yet gets one, and then its target is declared. -/
theorem run_pointerType (document : Document) (typeOf fieldType : TypeOf) (reference : String)
    (scope : Scope) :
    pointerType document typeOf fieldType reference scope =
      if reference = "#" then .ok (.ref document.root, scope)
      else match scope.pointers.lookup reference with
        | some name => .ok (.ref name, scope)
        | none => do
          let key ← requireKey reference
          let schema ← lookup document.schema reference key
          let name := freshName scope.taken (definitionName key)
          let ((), after) ← declareAs document.schema typeOf fieldType name schema
            (scope.naming reference name)
          return (.ref name, after) := by
  unfold pointerType
  -- a pointer to the whole document goes by the root
  by_cases hself : reference = "#"
  · rw [if_pos hself, if_pos hself]
    rfl
  rw [if_neg hself, if_neg hself]
  change (match scope.pointers.lookup reference with
    | some name => pure (.ref name)
    | none => _ : Declaring TypeExpr) scope = _
  cases scope.pointers.lookup reference with
  | some name => rfl
  | none =>
      dsimp only
      cases requireKey reference with
      | error e => rfl
      | ok key =>
          rw [lift_ok_bind, ok_bind]
          cases lookup document.schema reference key with
          | error e => rfl
          | ok schema => rfl

/-- A schema that is a pointer is typed as one. -/
theorem schemaType_pointer {schema : Json} {reference : String}
    (h : schema.getStr? "$ref" = some reference) (hint : String) :
    schemaType document typeOf fieldType schema hint =
      pointerType document typeOf fieldType reference := by
  unfold schemaType
  cases hobj : schema.obj? with
  | none =>
      cases schema with
      | obj members => exact nomatch hobj
      | _ => exact nomatch h
  | some members =>
      dsimp only
      rw [h]

/-- With room for a level, a schema is typed by way of the levels below it. -/
theorem typeAt_succ (document : Document) (room depth : Nat) :
    typeAt document (room + 1) depth = schemaType document (typeAt document room (depth + 1))
      (typeAt document (room - 1) (depth + 2)) := by
  cases room with
  | zero => rfl
  | succ room => rfl

/-! ## Properties that are handed on -/

/-- A property that the basic steps have and that is handed on when steps are put together. -/
structure Compositional (P : ∀ {α : Type}, Declaring α → Prop) : Prop where
  ofPure : ∀ {α : Type} (a : α), P (pure a : Declaring α)
  ofThrow : ∀ {α : Type} (e : SchemaError), P (throw e : Declaring α)
  bind : ∀ {α β : Type} {step : Declaring α} {next : α → Declaring β},
    P step → (∀ a, P (next a)) → P (step >>= next)
  claim : ∀ name, P (claim name)
  emit : ∀ declaration, P (emit declaration)

namespace Compositional

variable {P : ∀ {α : Type}, Declaring α → Prop} (h : Compositional P)
  (ht : ∀ schema hint, P (typeOf schema hint)) (hf : ∀ schema hint, P (fieldType schema hint))

include h

theorem lift (x : Except SchemaError α) : P (x : Declaring α) := by
  cases x with
  | error e => exact h.ofThrow e
  | ok a => exact h.ofPure a

theorem mapM {f : α → Declaring β} (hp : ∀ a, P (f a)) : ∀ items : List α, P (items.mapM f)
  | [] => h.ofPure []
  | a :: items => by
    rw [List.mapM_cons]
    exact h.bind (hp a) fun _ => h.bind (mapM hp items) fun _ => h.ofPure _

include hf in
theorem declareRecord (name : String) (members properties : Members) :
    P (declareRecord fieldType name members properties) :=
  h.bind (h.mapM (fun _ => h.bind (hf _ _) fun _ => h.ofPure _) properties) fun _ => h.emit _

include ht hf

theorem declareAs (document : Json) (name : String) (schema : Json) :
    P (declareAs document typeOf fieldType name schema) := by
  refine h.bind (h.lift _) fun flat => ?_
  split
  · exact h.declareRecord hf name _ _
  · exact h.bind (ht flat name) fun _ => h.emit _

omit hf in
theorem arrayType (members : Members) (hint : String) : P (arrayType typeOf members hint) := by
  unfold Schema.arrayType
  split
  · exact h.bind (h.mapM (fun _ => ht _ _) _) fun _ => h.ofPure _
  · exact h.bind (ht _ _) fun _ => h.ofPure _
  · exact h.ofPure _

theorem objectType (members : Members) (hint : String) :
    P (objectType typeOf fieldType members hint) := by
  unfold Schema.objectType
  split
  · exact h.bind (h.claim hint) fun name =>
      h.bind (h.declareRecord hf name members _) fun _ => h.ofPure _
  · split
    · exact h.bind (ht _ _) fun _ => h.ofPure _
    · exact h.ofPure _

omit hf in
theorem union (schemas : List Json) (hint : String) :
    P (TypeExpr.oneOf <$> memberTypes typeOf schemas hint) := by
  rw [map_eq_pure_bind]
  exact h.bind (h.mapM (fun _ => ht _ _) _) fun _ => h.ofPure _

theorem typedSchema (members : Members) (hint : String) :
    P (typedSchema typeOf fieldType members hint) := by
  unfold Schema.typedSchema
  split
  · exact h.bind (h.mapM (fun _ => ht _ _) _) fun _ => h.ofPure _
  · split
    case h_6 => exact h.arrayType ht members hint
    case h_7 => exact h.objectType ht hf members hint
    all_goals exact h.ofPure _
  · split
    · exact h.objectType ht hf members hint
    · split
      · exact h.arrayType ht members hint
      · exact h.ofPure _

theorem schemaType (hp : ∀ reference, P (pointerType document typeOf fieldType reference))
    (schema : Json) (hint : String) : P (schemaType document typeOf fieldType schema hint) := by
  unfold Schema.schemaType
  split
  · exact h.ofPure _
  · split
    · exact hp _
    · split
      · exact h.ofPure _
      · exact h.ofPure _
      · exact h.union ht _ hint
      · exact h.union ht _ hint
      · exact ht _ hint
      · exact h.bind (h.lift _) fun merged => ht merged hint
      · exact h.typedSchema ht hf _ hint

omit ht hf

/-- What is handed on, also when a pointer is followed, reaches every depth. -/
theorem typeAt
    (hp : ∀ {room depth}, (∀ schema hint, P (typeAt document room depth schema hint)) →
      (∀ schema hint, P (typeAt document (room - 1) (depth + 1) schema hint)) →
      ∀ reference, P (pointerType document (typeAt document room depth)
        (typeAt document (room - 1) (depth + 1)) reference))
    (room depth : Nat) (schema : Json) (hint : String) :
    P (typeAt document room depth schema hint) := by
  induction room using Nat.strongRecOn generalizing depth schema hint with
  | ind room ih =>
      cases room with
      | zero => exact h.ofThrow _
      | succ room =>
          have hbelow := ih room (by omega) (depth + 1)
          have hfields := ih (room - 1) (by omega) (depth + 2)
          rw [typeAt_succ]
          exact h.schemaType hbelow hfields (hp hbelow hfields) schema hint

end Compositional

end StubGen.Schema
