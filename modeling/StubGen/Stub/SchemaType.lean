import StubGen.Stub.Basic

/-!
# Stubs of schemas

A schema spec becomes the declarations of its type under its own name. One that cannot be
rendered becomes an alias that allows any mapping, so that the name is always there.
-/

namespace StubGen.Renderer

/-- The keys by which a schema says what it describes. -/
def shapeKeys : List String := ["type", "$ref", "anyOf", "oneOf", "allOf", "enum"]

/-- A definition as an object schema when it does not say what it describes. -/
def shapedDefinition (definition : Json) : Json :=
  let members := definition.obj?.getD []
  if shapeKeys.any (Members.hasKey members) then .obj members
  else .obj (Members.insert members "type" (.str "object"))

/-- The stub of a schema. -/
def schemaStub (r : Renderer) (spec : Spec) : Except Error Stub := do
  let entry ← spec.schemaEntry
  let leaf := leafOf entry.name
  let path ← pathOf .schemas entry.context leaf
  let definition := shapedDefinition entry.definition
  let type := Schema.render r.engine definition leaf "Dict"
  return {
    path := path
    source :=
      if type.hasDefinition then type.definition
      else Schema.rootName definition leaf "Dict" ++ " = Dict[str, Any]\n"
    typeDefs := "" }

end StubGen.Renderer
