import StubGen.NamespacePath
import StubGen.Parameters
import StubGen.Spec.View
import StubGen.Template.Catalog

/-!
# Stubs

A stub is the generated code for one spec: where it goes, what is appended to the module there,
and the module of types beside it. This module holds what all kinds of stubs share.
-/

namespace StubGen

/-- Generated code for one spec. -/
structure Stub where
  path : NamespacePath
  /-- What is appended to the module of the directory. -/
  source : String
  /-- The module of types beside it, which may be blank. -/
  typeDefs : String
deriving DecidableEq, Repr

namespace Stub

/-- Whether there is nothing to write. -/
def isEmpty (stub : Stub) : Bool := Text.isBlankText stub.source

def hasTypeDefs (stub : Stub) : Bool := !Text.isBlankText stub.typeDefs

end Stub

/-- What stubs are made with: the name of the package, the engine for schemas, and the id under
which the client of each webhook goes. -/
structure Renderer where
  package : String
  engine : Schema.Engine
  clientId : Spec → String

namespace Renderer

/-- The name of a declaration. -/
def leafOf (name : String) : String := Identifier.avoidReserved (Identifier.sanitize name)

/-- The path of a declaration. -/
def pathOf (root : Section) (context leaf : String) : Except Error NamespacePath :=
  (NamespacePath.ofContext root context leaf).mapError NamespacePath.Refusal.toError

/-- The description and the id of a spec, ready for a docstring or a literal. -/
def docValues (description id : String) : List (String × String) :=
  [("description",
      Quoting.indentContinuation "    " (Quoting.docstring (Text.trim description))),
   ("id_doc", Quoting.docstring id), ("id_literal", Quoting.literal id)]

/-- The module that holds some definitions, empty when there are none. -/
def typeModule (definitions : DefinitionSet) : String :=
  if definitions.isEmpty then ""
  else
    Template.typeModule.fill [("imports", definitions.importText), ("body", definitions.body)]

end Renderer

end StubGen
