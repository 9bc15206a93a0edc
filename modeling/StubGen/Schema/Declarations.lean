import StubGen.Schema.Declaration
import StubGen.Schema.Definition

/-!
# Declarations from a schema

A schema document becomes a list of declarations. An object with properties is declared as a
record wherever it stands, under a name built from the place it stands in; a pointer into the
document declares its target the first time it is met and names it from then on, so that
recursive documents come to an end. A record is declared when its fields are done, which puts
the ones it refers to first unless they refer back to it.

The nesting is bounded. `room` is how many levels are left below the current one, and the depth
itself is carried for the message that reports the limit.
-/

namespace StubGen.Schema

/-- What is fixed while a document is worked on. -/
structure Document where
  schema : Json
  root : String
  maxDepth : Nat

/-- What has been declared so far: the names that are taken, the name for each pointer that has
been followed, and the finished declarations. -/
structure Scope where
  taken : List String
  pointers : List (String × String)
  declarations : List Declaration

/-- A step that declares as it goes. -/
abbrev Declaring := StateT Scope (Except SchemaError)

/-- The first of `name`, `name2`, `name3`, … that is not taken; one of the first
`steps + 1` is free when at most `steps` names are taken. -/
def freshFrom (taken : List String) (name : String) : Nat → Nat → String
  | 0, counter => name ++ toString counter
  | steps + 1, counter =>
    let candidate := name ++ toString counter
    if taken.contains candidate then freshFrom taken name steps (counter + 1) else candidate

/-- The name itself if it is free, else the name with the lowest free number from 2 on. -/
def freshName (taken : List String) (name : String) : String :=
  if taken.contains name then freshFrom taken name taken.length 2 else name

/-- Takes a free name. -/
def claim (name : String) : Declaring String := fun scope =>
  let fresh := freshName scope.taken name
  .ok (fresh, { scope with taken := fresh :: scope.taken })

/-- Remembers the name for a pointer. -/
def bindPointer (reference name : String) : Declaring Unit :=
  modify fun scope => { scope with pointers := (reference, name) :: scope.pointers }

/-- Adds a finished declaration. -/
def emit (declaration : Declaration) : Declaring Unit :=
  modify fun scope => { scope with declarations := scope.declarations ++ [declaration] }

/-- A schema's type in text form, given the name a class made for it would get. -/
abbrev TypeOf := Json → String → Declaring TypeExpr

/-- A description that is not blank. -/
def description? (schema : Json) : Option String :=
  (schema.getStr? "description").filter fun text => !Text.isBlankText text

/-- The names that an object schema requires. -/
def requiredNames (members : Members) : List String :=
  (((members.get? "required").bind Json.arr?).getD []).filterMap Json.str?

/-- The field for a property. A required property without a description is said to be one. -/
def fieldOf (required : List String) (property : String) (schema : Json) (type : TypeExpr) :
    Field :=
  let isRequired := required.contains property
  { name := property
    type := type
    required := isRequired
    doc := (description? schema).orElse fun _ =>
      if isRequired then some "Required property" else none }

/-- Declares an object schema as a record. -/
def declareRecord (typeOf : TypeOf) (name : String) (members properties : Members) :
    Declaring Unit := do
  let required := requiredNames members
  let fields ← properties.mapM fun property => do
    let type ← typeOf property.2 (nestedName name property.1)
    return fieldOf required property.1 property.2 type
  emit (.record name (description? (.obj members)) fields)

/-- Declares a name: as a record if the schema is an object with properties, else as an alias.
`aliasType` types the schema itself and `fieldType` the properties, one level deeper. -/
def declareAs (document : Json) (aliasType fieldType : TypeOf) (name : String) (schema : Json) :
    Declaring Unit := do
  let flat ← (flattenAllOf document schema : Except SchemaError Json)
  match flat.obj?, flat.obj?.bind objectProperties? with
  | some members, some properties => declareRecord fieldType name members properties
  | _, _ =>
    let type ← aliasType flat name
    emit (.alias name type)

/-- The type of an array schema. -/
def arrayType (typeOf : TypeOf) (members : Members) (hint : String) : Declaring TypeExpr :=
  match members.get? "items" with
  | some (.arr items) => do
    let types ← items.zipIdx.mapM fun item => typeOf item.1 (hint ++ "Item" ++ toString item.2)
    return .tuple types
  | some item => do
    let type ← typeOf item (hint ++ "Item")
    return .list type
  | none => return .list .any

/-- The schema for the values of an object without named properties. -/
def valueSchema? (members : Members) : Option Json :=
  ((members.get? "additionalProperties").filter Json.isObject).orElse fun _ =>
    ((members.get? "patternProperties").bind Json.obj?).bind fun patterns =>
      patterns.head?.map Prod.snd

/-- The type of an object schema: a declared record, or a mapping. -/
def objectType (typeOf fieldType : TypeOf) (members : Members) (hint : String) :
    Declaring TypeExpr :=
  match objectProperties? members with
  | some properties => do
    let name ← claim hint
    declareRecord fieldType name members properties
    return .ref name
  | none =>
    match valueSchema? members with
    | some schema => do
      let type ← typeOf schema (hint ++ "Value")
      return .dict type
    | none => return .dict .any

/-- The type that a pointer stands for. A new one declares its target. -/
def pointerType (document : Document) (typeOf fieldType : TypeOf) (reference : String) :
    Declaring TypeExpr := do
  if reference = "#" then return .ref document.root
  match (← get).pointers.lookup reference with
  | some name => return .ref name
  | none =>
    let key ← (requireKey reference : Except SchemaError String)
    let schema ← (lookup document.schema reference key : Except SchemaError Json)
    let name ← claim (definitionName key)
    bindPointer reference name
    declareAs document.schema typeOf fieldType name schema
    return .ref name

/-- The types of the members of a union; each but the first gets its number in its name. -/
def memberTypes (typeOf : TypeOf) (schemas : List Json) (hint : String) :
    Declaring (List TypeExpr) :=
  schemas.zipIdx.mapM fun schema =>
    typeOf schema.1 (if schema.2 = 0 then hint else hint ++ toString schema.2)

/-- The members of an array under a key. -/
def arrayUnder? (members : Members) (key : String) : Option (List Json) :=
  (members.get? key).bind Json.arr?

/-- The type that a schema's `type` stands for, or the one that its other keys imply. -/
def typedSchema (typeOf fieldType : TypeOf) (members : Members) (hint : String) :
    Declaring TypeExpr :=
  match members.get? "type" with
  | some (.arr types) => do
    let exprs ← types.mapM fun type => typeOf (.obj (members.insert "type" type)) hint
    return TypeExpr.oneOf exprs
  | some (.str type) =>
    match type with
    | "string" => return .str
    | "integer" => return .int
    | "number" => return .float
    | "boolean" => return .bool
    | "null" => return .none
    | "array" => arrayType typeOf members hint
    | "object" => objectType typeOf fieldType members hint
    | _ => return .any
  | _ =>
    if members.hasKey "properties" then objectType typeOf fieldType members hint
    else if members.hasKey "items" then arrayType typeOf members hint
    else return .any

/-- The type of a schema, the first of these that it has: a pointer, a constant, an enumeration,
a union, a merge, a type. `typeOf` is for the schemas one level deeper and `fieldType` for the
properties of a class, two levels deeper. -/
def schemaType (document : Document) (typeOf fieldType : TypeOf) (schema : Json) (hint : String) :
    Declaring TypeExpr :=
  match schema.obj? with
  | none => return .any
  | some members =>
    match schema.getStr? "$ref" with
    | some reference => pointerType document typeOf fieldType reference
    | none =>
      match members.get? "const", arrayUnder? members "enum", arrayUnder? members "anyOf",
          arrayUnder? members "oneOf", arrayUnder? members "allOf" with
      | some value, _, _, _, _ => return constantType value
      | none, some values, _, _, _ => return enumType values
      | none, none, some schemas, _, _ => TypeExpr.oneOf <$> memberTypes typeOf schemas hint
      | none, none, none, some schemas, _ => TypeExpr.oneOf <$> memberTypes typeOf schemas hint
      | none, none, none, none, some [part] => typeOf part hint
      | none, none, none, none, some parts => do
        let merged ← (mergeParts document.schema parts : Except SchemaError Json)
        typeOf merged hint
      | none, none, none, none, none => typedSchema typeOf fieldType members hint

/-- Reports that a depth is beyond the limit. -/
def tooDeep (document : Document) (depth : Nat) : SchemaError :=
  .recursionLimit ("depth " ++ toString depth ++ " > " ++ toString document.maxDepth)

/-- The type of a schema at a depth, with room for as many levels from there on. -/
def typeAt (document : Document) : Nat → Nat → TypeOf
  | 0, depth => fun _ _ => throw (tooDeep document depth)
  | 1, depth =>
    schemaType document (fun _ _ => throw (tooDeep document (depth + 1)))
      (fun _ _ => throw (tooDeep document (depth + 2)))
  | room + 2, depth =>
    schemaType document (typeAt document (room + 1) (depth + 1)) (typeAt document room (depth + 2))

/-- The schema that the root name stands for: the whole document, or the definition of that name
if the document is a pointer to it. -/
def rootSchema (document : Document) : Except SchemaError (Json × Option String) :=
  match document.schema.getStr? "$ref" with
  | none => .ok (document.schema, none)
  | some reference =>
    match definitionKey? reference with
    | none => .ok (document.schema, none)
    | some key =>
      if definitionName key = document.root then do
        let schema ← lookup document.schema reference key
        return (schema, some reference)
      else .ok (document.schema, none)

/-- The declarations for a document, the root's among them. -/
def declarations (document : Document) : Except SchemaError (List Declaration) := do
  let (schema, pointer?) ← rootSchema document
  let scope : Scope :=
    { taken := [document.root]
      pointers := (pointer?.map fun pointer => (pointer, document.root)).toList
      declarations := [] }
  let typeOf := typeAt document (document.maxDepth + 1) 0
  let fieldType := typeAt document document.maxDepth 1
  let ((), scope) ← (declareAs document.schema typeOf fieldType document.root schema).run scope
  return scope.declarations

/-- How deep a document may be nested unless another limit is given. -/
def defaultMaxDepth : Nat := 48

/-- The module that declares a document's root and all it needs. -/
def generate (maxDepth : Nat) (schema : Json) (root : String) : Except SchemaError String :=
  (declarations ⟨schema, root, maxDepth⟩).map Declaration.renderModule

end StubGen.Schema
