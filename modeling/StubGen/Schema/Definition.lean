import StubGen.Identifier
import StubGen.Json.Printer
import StubGen.Quoting
import StubGen.Schema.TypeExpr

/-!
# Shared definitions of a document

A schema document keeps schemas under `definitions` or `$defs`; a pointer such as
`#/definitions/Pet` leads to one. This module follows pointers, merges the parts of an `allOf`
into one object schema, and reads off a schema what needs no declaration.
-/

namespace StubGen.Schema

/-- Why no declarations can be made from a schema. -/
inductive SchemaError where
  /-- The nesting is deeper than allowed. -/
  | recursionLimit (detail : String)
  /-- A pointer leads nowhere. -/
  | danglingReference (reference : String)
  /-- The engine itself failed. -/
  | engineFailure (reason : String)
deriving DecidableEq, Repr

namespace SchemaError

def message : SchemaError → String
  | .recursionLimit detail => "schema nesting exceeds the recursion limit: " ++ detail
  | .danglingReference reference =>
    "cannot determine specification for reference '" ++ reference ++ "'"
  | .engineFailure reason => "schema engine failed: " ++ reason

end SchemaError

/-- The key that a pointer names under `definitions` or `$defs`. -/
def definitionKey? (reference : String) : Option String :=
  let key? := (Text.after? "#/definitions/" reference).orElse fun _ =>
    Text.after? "#/$defs/" reference
  match key? with
  | none => none
  | some key =>
    if key.isEmpty || key.toList.contains '/' then none
    else some (Text.replace "~0" "~" (Text.replace "~1" "/" key))

/-- The name under which a definition is declared. -/
def definitionName (key : String) : String :=
  Identifier.upperFirst (Identifier.sanitize (Identifier.className key))

/-- The name of a class made for a property of another class. -/
def nestedName (parent property : String) : String :=
  "_" ++ String.ofList (parent.toList.dropWhile (· = '_')) ++
    Identifier.upperFirst (Identifier.sanitize property)

/-- The schema that a document keeps under a key. -/
def definition? (document : Json) (key : String) : Option Json :=
  ((document.get? "definitions").bind (Json.get? · key)).orElse fun _ =>
    (document.get? "$defs").bind (Json.get? · key)

/-- The schema that a pointer with the given key leads to. -/
def lookup (document : Json) (reference key : String) : Except SchemaError Json :=
  match definition? document key with
  | some schema => .ok schema
  | none => .error (.danglingReference reference)

/-- The key that a pointer names. -/
def requireKey (reference : String) : Except SchemaError String :=
  match definitionKey? reference with
  | some key => .ok key
  | none => .error (.danglingReference reference)

/-- The properties of an object schema that has any. A schema without a type counts as one. -/
def objectProperties? (members : Members) : Option Members :=
  let isObject := match members.get? "type" with
    | none => true
    | some type => type.isText "object"
  match (members.get? "properties").bind Json.obj? with
  | some (property :: properties) => if isObject then some (property :: properties) else none
  | _ => none

/-- A part of an `allOf`, with a pointer followed. -/
def resolvePart (document part : Json) : Except SchemaError Json :=
  match part.getStr? "$ref" with
  | some reference => do
    let key ← requireKey reference
    lookup document reference key
  | none => .ok part

/-- The properties that a part of an `allOf` itself lists. -/
def partProperties (part : Json) : Members :=
  ((part.get? "properties").bind Json.obj?).getD []

/-- The names that a part of an `allOf` itself requires. -/
def partRequired (part : Json) : List Json :=
  ((part.get? "required").bind Json.arr?).getD []

/-- The parts of an `allOf` as one object schema: all properties, a later one in the place of an
earlier one of its name, and all required names. -/
def mergeParts (document : Json) (parts : List Json) : Except SchemaError Json := do
  let resolved ← parts.mapM (resolvePart document)
  return .obj
    [("type", .str "object"),
     ("properties", .obj (resolved.foldl (fun all p => Members.insertAll all (partProperties p)) [])),
     ("required", .arr (resolved.flatMap partRequired))]

mutual

/-- A schema with its `allOf` resolved: a single part stands for the whole, several parts are
merged. -/
def flattenAllOf (document : Json) : Json → Except SchemaError Json
  | .obj members => (flattenMembers document members).getD (.ok (.obj members))
  | schema => .ok schema

def flattenMembers (document : Json) : Members → Option (Except SchemaError Json)
  | [] => none
  | (key, value) :: rest =>
    if key = "allOf" then flattenParts document value else flattenMembers document rest

def flattenParts (document : Json) : Json → Option (Except SchemaError Json)
  | .arr [part] => some (flattenAllOf document part)
  | .arr parts => some (mergeParts document parts)
  | _ => none

end

/-- A constant in a type expression. -/
def literalText : Json → String
  | .str text => Quoting.literal text
  | .bool true => "True"
  | .bool false => "False"
  | .null => "None"
  | .int n => String.ofList (Json.intDigits n)
  | .float x => String.ofList (Json.floatChars x)
  | value => Quoting.literal value.compact

/-- The type of a `const`. -/
def constantType (value : Json) : TypeExpr :=
  if value.isNull then .none else .literal [literalText value]

/-- The type of an `enum`. -/
def enumType (values : List Json) : TypeExpr :=
  TypeExpr.oneOfValues ((values.filter fun v => !v.isNull).map literalText)
    (values.any Json.isNull)

end StubGen.Schema
