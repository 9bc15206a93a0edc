import StubGen.Json.Printer
import StubGen.Schema.Resolution
import StubGen.Spec.Encode
import StubGen.Spec.View

/-!
# References between specs

A marker `x-poly-ref` in a schema stands for the schema spec that goes by its path. References
are resolved by putting the definitions in their place, as deep as they nest and at most 128
levels deep. A marker whose path is not in the index stays; a function or schema that still has
one is dropped, as is every spec whose references go in a circle.
-/

namespace StubGen

/-- Why references cannot be resolved. -/
inductive ReferenceError where
  | cycle (path : String)
  | depthExceeded (limit : Nat)
  | malformed (reason : String)
deriving DecidableEq, Repr

def ReferenceError.message : ReferenceError → String
  | .cycle path => "poly-ref cycle through '" ++ path ++ "'"
  | .depthExceeded limit => "poly-ref resolution exceeded depth " ++ toString limit
  | .malformed reason => "malformed poly-ref: " ++ reason

/-- The definitions that markers can refer to, by path. Of two with one path the later counts. -/
structure SchemaIndex where
  entries : Members

namespace SchemaIndex

open Schema (markerKey)

def build (schemas : List SchemaEntry) : SchemaIndex :=
  ⟨schemas.foldl (fun entries s => Members.insert entries s.contextName s.definition) []⟩

/-- The index of all schemas among some specs. -/
def ofSpecs (specs : List Spec) : SchemaIndex :=
  build (specs.filterMap fun spec => spec.schemaEntry.toOption)

def size (index : SchemaIndex) : Nat := index.entries.length

def get? (index : SchemaIndex) (path : String) : Option Json := Members.get? index.entries path

/-- How many levels deep references are resolved. -/
def depthLimit : Nat := 128

/-- The path of a marker's content. -/
def pathOf (marker : Json) : Except ReferenceError String :=
  match marker.getStr? "path" with
  | some path => .ok path
  | none => .error (.malformed ("marker without a string path: " ++ marker.compact))

/-- Resolves a value inside the definitions of the paths in `open`, with room for as many levels
below it. -/
def resolveAt (index : SchemaIndex) : Nat → List String → Json → Except ReferenceError Json
  | 0, _, _ => .error (.depthExceeded depthLimit)
  | room + 1, inside, value =>
    match value with
    | .obj members =>
      match Members.get? members markerKey with
      | none => do
        let resolved ← members.mapM fun m => do
          let child ← resolveAt index room inside m.2
          return (m.1, child)
        return .obj resolved
      | some marker => do
        let path ← pathOf marker
        match index.get? path with
        | none => return value
        | some target =>
          if inside.contains path then .error (.cycle path)
          else resolveAt index room (path :: inside) target
    | .arr items => .arr <$> items.mapM (resolveAt index room inside)
    | scalar => .ok scalar

/-- A value with all references to indexed paths resolved. -/
def resolve (index : SchemaIndex) (value : Json) : Except ReferenceError Json :=
  index.resolveAt (depthLimit + 1) [] value

mutual

/-- The paths of the markers in a value, in order; a marker without a path counts as `?`. -/
def unresolvedPaths : Json → List String
  | .obj members =>
    match Members.get? members markerKey with
    | some marker => [(marker.getStr? "path").getD "?"]
    | none => unresolvedInMembers members
  | .arr items => unresolvedInItems items
  | _ => []

def unresolvedInMembers : List (String × Json) → List String
  | [] => []
  | (_, value) :: rest => unresolvedPaths value ++ unresolvedInMembers rest

def unresolvedInItems : List Json → List String
  | [] => []
  | item :: items => unresolvedPaths item ++ unresolvedInItems items

end

/-- Refuses a value with a marker left in it where none may be. -/
def requireResolved (strict : Bool) (value : Json) : Except Error Unit :=
  match strict, unresolvedPaths value with
  | true, path :: _ => .error (.unresolvedReference path)
  | _, _ => .ok ()

/-- A value of a spec resolved; in functions and schemas no marker may be left. -/
def resolveValue (index : SchemaIndex) (strict : Bool) (name : String) (value : Json) :
    Except Error Json := do
  let resolved ← (index.resolve value).mapError fun e => Error.render name e.message
  requireResolved strict resolved
  return resolved

def resolveSignature (index : SchemaIndex) (strict : Bool) (name : String)
    (signature : Signature) : Except Error Signature := do
  let resolved ← index.resolveValue strict name (Spec.encodeSignature signature)
  (Spec.decodeSignature .outside resolved).mapError fun e =>
    Error.render name (ReferenceError.malformed e.message).message

/-- The type of a variable resolved; a marker may be left in it. -/
def resolveVariable (index : SchemaIndex) (name : String) (v : Variable) :
    Except Error Variable := do
  let resolved ← index.resolveValue false name (Spec.encodeType v.valueType)
  let valueType ← (Spec.decodeType .outside resolved).mapError fun e => Error.serialization e.message
  return { v with valueType := valueType }

/-- Whether no marker may be left in specs of a category. -/
def isStrict (category : Category) : Bool := category.isFunction || category == .schema

/-- A spec with all its references resolved. -/
def resolveSpec (index : SchemaIndex) (spec : Spec) : Except Error Spec := do
  let strict := isStrict spec.category
  let name := spec.qualifiedName
  let signature ← spec.signature.mapM (index.resolveSignature strict name)
  let definition ← spec.definition.mapM (index.resolveValue strict name)
  let schema ← spec.schema.mapM (index.resolveValue strict name)
  let storedVariable ← spec.storedVariable.mapM (index.resolveVariable name)
  return { spec with
    signature := signature, definition := definition, schema := schema
    storedVariable := storedVariable }

/-- The specs that could be resolved, and the identities of those that could not. -/
structure Outcome where
  items : List Spec
  dropped : List String

/-- Resolves the references of some specs, dropping those that cannot be resolved. -/
def apply (index : SchemaIndex) (specs : List Spec) : Outcome :=
  specs.foldr (fun spec outcome =>
    match index.resolveSpec spec with
    | .ok resolved => { outcome with items := resolved :: outcome.items }
    | .error _ => { outcome with dropped := spec.identity :: outcome.dropped }) ⟨[], []⟩

end SchemaIndex

end StubGen
