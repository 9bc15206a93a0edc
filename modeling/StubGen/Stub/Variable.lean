import StubGen.Stub.Basic

/-!
# Stubs of variables

A variable becomes a class that reads it, changes it, and refers to it in a call. A secret
variable cannot be read.
-/

namespace StubGen.Renderer

/-- The stub of a variable. -/
def variableStub (r : Renderer) (spec : Spec) : Except Error Stub := do
  let entry ← spec.variableEntry
  let leaf := leafOf entry.name
  let path ← pathOf .variables entry.context leaf
  let type := Typing.resolve r.engine entry.content.valueType entry.name
  return {
    path := path
    source := Template.variableClass.fill <|
      [("name", leaf), ("value_type", TypeName.qualify leaf type.expr),
        ("secret", if entry.content.secret then "True" else "False"),
        ("get_action", if type.expr = "str" then "resp.text" else "resp.json()")] ++
        docValues entry.description entry.id
    typeDefs := typeModule (DefinitionSet.empty.push type.definition) }

end StubGen.Renderer
