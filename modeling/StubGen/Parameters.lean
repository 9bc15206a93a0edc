import StubGen.DefinitionSet
import StubGen.Typing

/-!
# Parameter lists

The parameters of a generated function, the mapping that sends them under their remote names,
and the definitions that their types need. Local names are made distinct. A required parameter
behind an optional one can only be given by keyword.
-/

namespace StubGen

/-- The rendered parameters of a function. -/
structure ParameterList where
  /-- The lines of the parameters. -/
  lines : List String
  /-- The remote name and the local name of each parameter. -/
  names : List (String × String)
  definitions : DefinitionSet
deriving DecidableEq, Repr

namespace ParameterList

/-- The first of `name2`, `name3`, … that is not used; one of the first `steps + 1` is free when
at most `steps` names are used. -/
def freeNameFrom (used : List String) (name : String) : Nat → Nat → String
  | 0, counter => name ++ toString counter
  | steps + 1, counter =>
    let candidate := name ++ toString counter
    if used.contains candidate then freeNameFrom used name steps (counter + 1) else candidate

/-- The name itself if it is free, else the name with the lowest free number from 2 on. -/
def freeName (used : List String) (name : String) : String :=
  if used.contains name then freeNameFrom used name used.length 2 else name

/-- The name of a parameter on the wire. -/
def remoteName (index : Nat) (parameter : Parameter) : String :=
  if parameter.name.isEmpty then "arg" ++ toString index else parameter.name

/-- The type of a parameter. -/
def typeOf (engine : Schema.Engine) (parameter : Parameter) : Resolution :=
  Typing.resolve engine (Typing.withFallbackTitle parameter.type parameter.name)
    (Identifier.title parameter.name)

/-- The line of one parameter. -/
def line (owner name : String) (parameter : Parameter) (type : Resolution) : String :=
  let description := Quoting.comment parameter.description
  "    " ++ name ++ ": " ++ TypeName.qualify owner type.expr ++
    (if parameter.required then "" else " = None") ++ "," ++
    if description.isEmpty then "" else "  # " ++ description

/-- A parameter list while it is rendered. -/
structure Draft where
  list : ParameterList
  seenOptional : Bool
  keywordOnly : Bool

/-- Adds one parameter. -/
def step (engine : Schema.Engine) (owner : String) (d : Draft) (entry : Parameter × Nat) :
    Draft :=
  let parameter := entry.1
  let remote := remoteName entry.2 parameter
  let name := freeName (d.list.names.map Prod.snd) (Identifier.argumentName remote)
  let type := typeOf engine parameter
  let startsKeywords := parameter.required && d.seenOptional && !d.keywordOnly
  { list :=
      { lines := d.list.lines ++ (if startsKeywords then ["    *,"] else []) ++
          [line owner name parameter type]
        names := d.list.names ++ [(remote, name)]
        definitions := d.list.definitions.push type.definition }
    seenOptional := d.seenOptional || !parameter.required
    keywordOnly := d.keywordOnly || startsKeywords }

/-- The parameter list of a function. -/
def ofParameters (engine : Schema.Engine) (owner : String) (parameters : List Parameter) :
    ParameterList :=
  (parameters.zipIdx.foldl (step engine owner) ⟨⟨[], [], .empty⟩, false, false⟩).list

/-- The parameter lines in text. -/
def signature (list : ParameterList) : String := Text.join "\n" list.lines

/-- The mapping from remote names to the parameters. -/
def payload (list : ParameterList) : String :=
  "\x7b" ++ Text.join ", " (list.names.map fun n => Quoting.singleQuoted n.1 ++ ": " ++ n.2) ++
    "\x7d"

end ParameterList

end StubGen
