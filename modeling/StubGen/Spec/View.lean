import StubGen.Error
import StubGen.Spec.Decode
import StubGen.Spec.Encode

/-!
# Views of a spec

What the categories that are no functions have of their own, seen through the one record of a
spec: a schema with the name it is referred to by, a variable, and a table with its row schema.
-/

namespace StubGen

/-- A schema that markers can refer to. -/
structure SchemaEntry where
  id : String
  context : String
  name : String
  contextName : String
  definition : Json
deriving Inhabited

structure VariableEntry where
  id : String
  context : String
  name : String
  description : String
  content : Variable

structure TableEntry where
  id : String
  context : String
  name : String
  description : String
  rowSchema : Json

namespace Spec

/-- Refuses a spec of another category than the one wanted. -/
def requireCategory (spec : Spec) (category : Category) (noun : String) : Except Error Unit :=
  if spec.category = category then .ok ()
  else
    .error <| .invalidArgument
      (spec.qualifiedName ++ " is a " ++ spec.category.name ++ ", not a " ++ noun)

/-- A schema goes by its qualified name unless it says otherwise. -/
def schemaEntry (spec : Spec) : Except Error SchemaEntry := do
  spec.requireCategory .schema "schema"
  return { id := spec.id, context := spec.context, name := spec.name
           contextName := spec.contextName.getD spec.qualifiedName
           definition := spec.definition.getD .null }

def variableEntry (spec : Spec) : Except Error VariableEntry := do
  spec.requireCategory .serverVariable "variable"
  return { id := spec.id, context := spec.context, name := spec.name
           description := spec.description
           content := spec.storedVariable.getD default }

def tableEntry (spec : Spec) : Except Error TableEntry := do
  spec.requireCategory .table "table"
  match spec.schema with
  | none =>
    .error (.validation "schema" ("table " ++ spec.qualifiedName ++ " has no row schema"))
  | some rowSchema =>
    return { id := spec.id, context := spec.context, name := spec.name
             description := spec.description, rowSchema := rowSchema }

end Spec

namespace SchemaEntry

def fieldNames : List String := ["id", "context", "name", "contextName", "definition"]

/-- A schema entry while it is read. -/
structure Draft where
  id : Option String
  context : Option String
  name : Option String
  contextName : Option String
  definition : Option Json

def setField (d : Draft) (key : String) (value : Json) : Spec.Decoded Draft :=
  if key = "id" then do
    let id ← Spec.text value
    return { d with id := some id }
  else if key = "context" then do
    let context ← Spec.text value
    return { d with context := some context }
  else if key = "name" then do
    let name ← Spec.text value
    return { d with name := some name }
  else if key = "contextName" then do
    let contextName ← Spec.text value
    return { d with contextName := some contextName }
  else if key = "definition" then .ok { d with definition := some value }
  else .ok d

/-- A schema entry from JSON; every field is required. -/
def decode (source : Json) : Spec.Decoded SchemaEntry := do
  let members ← Spec.recordMembers fieldNames "struct SchemaSpecDto" source
  let draft ← members.foldlM (fun d m => setField d m.1 m.2) ⟨none, none, none, none, none⟩
  let required {α : Type} (field : String) (value : Option α) : Spec.Decoded α :=
    Spec.require fieldNames "struct SchemaSpecDto" source field value
  let id ← required "id" draft.id
  let context ← required "context" draft.context
  let name ← required "name" draft.name
  let contextName ← required "contextName" draft.contextName
  let definition ← required "definition" draft.definition
  Spec.checkRecordLength fieldNames source
  return { id := id, context := context, name := name, contextName := contextName
           definition := definition }

/-- A schema entry as JSON. -/
def encode (entry : SchemaEntry) : Json :=
  .obj [("id", .str entry.id), ("context", .str entry.context), ("name", .str entry.name),
    ("contextName", .str entry.contextName), ("definition", entry.definition)]

end SchemaEntry

/-- A variable as JSON. -/
def VariableEntry.encode (entry : VariableEntry) : Json :=
  .obj [("id", .str entry.id), ("context", .str entry.context), ("name", .str entry.name),
    ("description", .str entry.description), ("variable", Spec.encodeVariable entry.content)]

/-- A table as JSON. -/
def TableEntry.encode (entry : TableEntry) : Json :=
  .obj [("id", .str entry.id), ("context", .str entry.context), ("name", .str entry.name),
    ("description", .str entry.description), ("schema", entry.rowSchema)]

end StubGen
