import StubGen.Stub.Basic

/-!
# Stubs of functions

A stub for each category of function: calls of remote APIs and of server functions, code that is
part of the package, the operations of an authentication provider, and webhooks.
-/

namespace StubGen

/-- The code of a function and the definitions that it needs. -/
structure FunctionBody where
  source : String
  definitions : DefinitionSet
deriving DecidableEq, Repr

namespace FunctionBody

/-- Nothing to write. -/
def nothing : FunctionBody := ⟨"", .empty⟩

end FunctionBody

namespace Renderer

/-- The type of a function's result. -/
def resultType (r : Renderer) (signature : Signature) : Resolution :=
  Typing.resolve r.engine signature.returnType ""

/-- The parameters of a function. -/
def parameterList (r : Renderer) (leaf : String) (signature : Signature) : ParameterList :=
  ParameterList.ofParameters r.engine leaf signature.parameters

/-- The name of the wrapper around an API function's result. -/
def envelopeName (leaf : String) : String := leaf ++ "Response"

/-- A function that calls a remote API. Its result comes in a wrapper with the response's status
and headers. -/
def apiBody (r : Renderer) (spec : Spec) (leaf : String) (signature : Signature) :
    FunctionBody :=
  let parameters := r.parameterList leaf signature
  let result := r.resultType signature
  let envelope :=
    Template.apiResponse.fill [("response_type", envelopeName leaf), ("data_type", result.expr)]
  { source := Template.apiFunction.fill <|
      [("name", leaf), ("parameters", parameters.signature),
        ("response_type", TypeName.qualify leaf (envelopeName leaf)),
        ("payload", parameters.payload)] ++ docValues spec.description spec.id
    definitions := (parameters.definitions.push result.definition).push envelope }

/-- What a server function gives back, by the type of its result. -/
def returnAction (returnType : String) : String :=
  if returnType = "str" || returnType = "Any" then "resp.text"
  else if returnType = "int" then "int(resp.text.replace('(int) ', ''))"
  else if returnType = "float" then "float(resp.text.replace('(float) ', ''))"
  else if returnType = "bool" then "False if resp.text == 'False' else True"
  else if returnType = "None" then "None"
  else "resp.json()"

/-- A function that runs on the server. -/
def serverBody (r : Renderer) (spec : Spec) (leaf : String) (signature : Signature) :
    FunctionBody :=
  let parameters := r.parameterList leaf signature
  let result := r.resultType signature
  { source := Template.serverFunction.fill <|
      [("name", leaf), ("parameters", parameters.signature),
        ("return_type", TypeName.qualify leaf result.expr), ("payload", parameters.payload),
        ("return_action", returnAction result.expr)] ++ docValues spec.description spec.id
    definitions := parameters.definitions.push result.definition }

/-- A function whose code is part of the package; without code it does nothing. -/
def clientBody (r : Renderer) (spec : Spec) (leaf : String) (signature : Signature) :
    FunctionBody :=
  let parameters := r.parameterList leaf signature
  let result := r.resultType signature
  let code := Text.trim (spec.code.getD "")
  let code := if code.isEmpty then "pass" else code
  { source := Template.clientFunction.fill [("code", Quoting.indentContinuation "    " code)]
    definitions := parameters.definitions.push result.definition }

/-- The template for an operation of an authentication provider. -/
def authTemplate? (name : String) : Option Template :=
  if name = "getToken" then some .authGetToken
  else if name = "refreshToken" then some .authRefreshToken
  else if name = "revokeToken" then some .authRevokeToken
  else none

/-- An operation of an authentication provider; other operations are not offered to clients. -/
def authBody (spec : Spec) : FunctionBody :=
  match authTemplate? spec.name with
  | some template => ⟨template.fill (docValues spec.description spec.id), .empty⟩
  | none => .nothing

/-- Whether the parameters of an event all have names of their own, white space around them not
counting. -/
def hasDistinctNames (signature : Signature) : Bool :=
  let names := signature.parameters.map fun p => Text.trim p.name
  names.all (fun name => !name.isEmpty) && decide names.Nodup

/-- A webhook subscription. One whose parameters are not well named is left out. -/
def webhookBody (r : Renderer) (spec : Spec) (leaf : String) (path : NamespacePath) :
    FunctionBody :=
  if (spec.signature.map hasDistinctNames).getD true then
    { source := Template.webhookHandle.fill <|
        [("name", leaf), ("package", r.package),
          ("start_message",
            Quoting.literal ("Starting webhook handler for " ++ path.render ++ "...")),
          ("client_id", Quoting.literal (r.clientId spec)),
          ("path_literal", Quoting.literal path.render)] ++ docValues spec.description spec.id
      definitions := .empty }
  else .nothing

/-- The code of a function of a category; nothing for a category that is none of functions. -/
def functionBody? (r : Renderer) (spec : Spec) (leaf : String) (path : NamespacePath) :
    Option FunctionBody :=
  let signature := spec.signature.getD default
  match spec.category with
  | .apiFunction => some (r.apiBody spec leaf signature)
  | .serverFunction => some (r.serverBody spec leaf signature)
  | .customFunction => some (r.clientBody spec leaf signature)
  | .authFunction => some (authBody spec)
  | .webhookHandle => some (r.webhookBody spec leaf path)
  | .serverVariable | .schema | .table => none

/-- The stub of a function. -/
def functionStub (r : Renderer) (spec : Spec) : Except Error Stub := do
  let leaf := leafOf spec.name
  let path ← pathOf .functions spec.context leaf
  match r.functionBody? spec leaf path with
  | some body =>
    return { path := path, source := body.source, typeDefs := typeModule body.definitions }
  | none =>
    throw (.invalidArgument
      (spec.qualifiedName ++ " is a " ++ spec.category.name ++ ", not a function"))

end Renderer

end StubGen
