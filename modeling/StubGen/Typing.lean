import StubGen.Schema.Resolution
import StubGen.Spec.Basic
import StubGen.TypeName

/-!
# Types of parameters and results

A declared type becomes a type expression and the declarations that it needs. Schemas are
rendered by an engine and never fail, so neither does this: what cannot be told becomes a plain
mapping, a plain list or any value.
-/

namespace StubGen.Typing

open Schema (Engine)

/-- The title of a schema, or else its name, if it is not blank. -/
def schemaTitle? (schema : Json) : Option String :=
  (((schema.get? "title").orElse fun _ => schema.get? "name").bind Json.str?).filter fun text =>
    !Text.isBlankText text

/-- The schema of an array with the given items. -/
def arraySchema (items : Json) : Json := .obj [("type", .str "array"), ("items", items)]

/-- The primitive type that a schema names, lists and mappings left aside. -/
def scalarType? (schema : Json) : Option String :=
  (schema.getStr? "type").filter fun type =>
    TypeName.isPrimitive type && type != "object" && type != "array"

/-- A list whose items are described by a schema. -/
def listOfSchema (engine : Engine) (schema : Json) (fallbackTitle : String) : Resolution :=
  match scalarType? schema with
  | some type => .plain ("List[" ++ TypeName.ofPrimitive type ++ "]")
  | none =>
    let root := if Text.isBlankText fallbackTitle then "ResponseType" else fallbackTitle
    Schema.render engine (arraySchema schema) root "List[Dict]"

/-- An item schema with the shared definitions of the schema around it, unless it has its own. -/
def carryDefinitions (parent item : Json) : Json :=
  match item with
  | .obj members =>
    .obj <| ["definitions", "$defs"].foldl (fun ms key =>
      match parent.get? key with
      | some definitions => if Members.hasKey ms key then ms else Members.insert ms key definitions
      | none => ms) members
  | _ => item

/-- A list whose items are named by their title or by the last part of their pointer. -/
def listOfTitled (engine : Engine) (schema items : Json) (fallbackTitle : String) : Resolution :=
  let path := ((items.getStr? "title").orElse fun _ => items.getStr? "$ref").getD fallbackTitle
  let title := Text.lastPiece '/' path
  if title.isEmpty then .plain "List"
  else
    let item := Schema.render engine (carryDefinitions schema items) title "Dict"
    if item.hasDefinition then ⟨"List[" ++ item.expr ++ "]", item.definition⟩
    else .plain "List[Dict]"

/-- The only part of an `allOf`. -/
def onlyPart? (schema : Json) : Option Json :=
  match schema.get? "allOf" with
  | some (.arr [part]) => some part
  | _ => none

/-- Whether a schema lists properties. -/
def listsProperties (schema : Json) : Bool :=
  match (schema.get? "properties").bind Json.obj? with
  | some properties => !properties.isEmpty
  | none => false

/-- The type of an object schema that goes by no title. -/
def untitledSchema (engine : Engine) (schema : Json) (fallbackTitle : String) : Resolution :=
  match onlyPart? schema with
  | some part =>
    Schema.render engine part ((schemaTitle? part).getD fallbackTitle) "Dict"
  | none =>
    match (schema.get? "items").filter Json.isObject with
    | some items => listOfTitled engine schema items fallbackTitle
    | none =>
      if listsProperties schema then Schema.render engine schema "ResponseType" "Dict"
      else .plain "Dict"

/-- The type of an object schema. One that goes by `ReturnType` stands for its primitive type. -/
def ofSchema (engine : Engine) (schema : Json) (fallbackTitle : String) : Resolution :=
  let title := (schemaTitle? schema).getD fallbackTitle
  let type? := schema.get? "type"
  if title.isEmpty then untitledSchema engine schema fallbackTitle
  else if (type?.map fun type => type.isText "array") == some true then
    Schema.render engine schema title "List"
  else
    match title == "ReturnType", type?.bind Json.str? with
    | true, some type => .plain (TypeName.ofPrimitive type)
    | _, _ => Schema.render engine schema title "Dict"

/-- A plain type name, which may end in `[]` for a list. -/
def ofPlainName (name : String) : Resolution :=
  match Text.before? "[]" name with
  | some item => .plain ("List[" ++ TypeName.ofPrimitive item ++ "]")
  | none => .plain (TypeName.ofPrimitive name)

/-- A callable from the types of its parameters and of its result. A result that needs a
declaration may be anything. -/
def callable (parameters : List Resolution) (result : Resolution) : Resolution :=
  let returnExpr := if TypeName.isBasic result.expr then result.expr else "Any"
  { expr :=
      "Callable[[" ++ Text.join ", " (parameters.map Resolution.expr) ++ "], " ++ returnExpr ++ "]"
    definition :=
      Text.join "\n" ((parameters.filter Resolution.hasDefinition).map Resolution.definition) }

mutual

/-- The type expression for a declared type. The fallback title is the name of an object schema
that has none, and of an array of unnamed items. -/
def resolve (engine : Engine) (type : DeclaredType) (fallbackTitle : String) : Resolution :=
  match type with
  | .void => .plain "None"
  | .any => .plain "Any"
  | .primitive typeName => .plain (TypeName.ofPrimitive typeName)
  | .plain value => ofPlainName value
  | .array none => .plain "List"
  | .array (some items) => resolveItems engine items fallbackTitle
  | .object none _ _ => .plain "Dict"
  | .object (some schema) _ _ => ofSchema engine schema fallbackTitle
  | .function none => .plain "Callable"
  | .function (some signature) => resolveSignature engine signature

def resolveItems (engine : Engine) (items : ArrayItems) (fallbackTitle : String) : Resolution :=
  match items with
  | .schema schema => listOfSchema engine schema fallbackTitle
  | .type type =>
    let item := resolve engine type ""
    ⟨Identifier.className ("List[" ++ item.expr ++ "]"), item.definition⟩

def resolveSignature (engine : Engine) (signature : Signature) : Resolution :=
  match signature with
  | .mk parameters returnType _ =>
    callable (resolveParameters engine parameters) (resolve engine returnType "")

def resolveParameters (engine : Engine) (parameters : List Parameter) : List Resolution :=
  match parameters with
  | [] => []
  | parameter :: rest => resolveParameter engine parameter :: resolveParameters engine rest

def resolveParameter (engine : Engine) (parameter : Parameter) : Resolution :=
  match parameter with
  | .mk _ _ _ _ type => resolve engine type ""

end

/-- A declared type whose object schema gets a title made of a parameter's name, unless it has a
title or a name. -/
def withFallbackTitle (type : DeclaredType) (name : String) : DeclaredType :=
  match type with
  | .object (some (.obj members)) properties typeName =>
    if name.isEmpty || Members.hasKey members "title" || Members.hasKey members "name" then type
    else
      .object (some (.obj (Members.insert members "title" (.str (Identifier.title name)))))
        properties typeName
  | _ => type

end StubGen.Typing
