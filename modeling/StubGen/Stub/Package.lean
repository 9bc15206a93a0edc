import StubGen.Stub.Function
import StubGen.Stub.SchemaType
import StubGen.Stub.Table
import StubGen.Stub.Variable

/-!
# The package around the stubs

Each spec is rendered by its category. Besides, a package has two files of its own, and every
module of a section begins with the preamble of the section.
-/

namespace StubGen

/-- A file of the package, by its path below the package's directory. -/
structure PackageFile where
  path : String
  content : String
deriving DecidableEq, Repr

namespace Renderer

/-- The stub of a spec. -/
def render (r : Renderer) (spec : Spec) : Except Error Stub :=
  match spec.category with
  | .serverVariable => r.variableStub spec
  | .schema => r.schemaStub spec
  | .table => r.tableStub spec
  | _ => r.functionStub spec

/-- What every module of a section begins with. -/
def preamble (r : Renderer) (root : Section) : String :=
  let template := match root with
    | .functions | .variables => Template.codePreamble
    | .schemas => Template.schemasPreamble
    | .tables => Template.tablesPreamble
  template.fill [("package", r.package)]

/-- The line that imports a module from the directory it is in. -/
def importLine (name : String) : String := "from . import " ++ name

/-- The files at the top of the package. -/
def packageFiles (r : Renderer) (baseUrl : String) : List PackageFile :=
  [{ path := "__init__.py"
     content := Template.packageInit.fill
      [("section_imports",
        Text.join "\n" (Section.all.map fun root => importLine root.directory))] },
   { path := "runtime.py"
     content := Template.packageRuntime.fill
      [("package", r.package), ("default_base_url", Quoting.literal baseUrl)] }]

end Renderer

end StubGen
