import StubGen.Spec.Basic
import StubGen.Text.Split

/-!
# Queries

Which part of the catalog is wanted: contexts, names and ids, each list standing for no
restriction when it is empty. Schemas pass the filters on names and ids, since functions refer to
them.
-/

namespace StubGen

structure Query where
  contexts : List String
  names : List String
  functionIds : List String
  /-- Whether the service may leave out the types. -/
  noTypes : Bool
deriving DecidableEq, Repr, Inhabited

namespace Query

/-- The query for everything. -/
def everything : Query := ⟨[], [], [], false⟩

/-- Whether a context is the wanted one or lies below it. -/
def isWithin (context wanted : String) : Bool :=
  context == wanted ||
    match Text.after? wanted context with
    | some rest => Text.startsWith "." rest
    | none => false

def matchesContext (query : Query) (context : String) : Bool :=
  query.contexts.isEmpty || query.contexts.any (isWithin context)

/-- Whether a spec is wanted. -/
def accepts (query : Query) (spec : Spec) : Bool :=
  query.matchesContext spec.context &&
    (spec.category == .schema ||
      ((query.names.isEmpty || query.names.contains spec.name) &&
        (query.functionIds.isEmpty || query.functionIds.contains spec.id)))

/-- A query as parameters of a request. -/
def parameters (query : Query) : List (String × String) :=
  let list (key : String) (values : List String) : List (String × String) :=
    if values.isEmpty then [] else [(key, Text.join "," values)]
  list "contexts" query.contexts ++ list "names" query.names ++
    list "ids" query.functionIds ++ if query.noTypes then [("noTypes", "true")] else []

end Query

end StubGen
