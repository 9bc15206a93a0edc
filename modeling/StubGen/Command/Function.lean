import StubGen.Command.Session
import StubGen.FunctionPath

/-!
# The commands on single functions

A function is added by sending its code to the service, and executed by sending arguments for it.
Arguments are a JSON object, or a JSON array with a value for each parameter in order.
-/

namespace StubGen.Command

/-! ## Adding -/

/-- What the user says about a function. -/
structure AddArguments where
  name : String
  /-- The file with the code. -/
  file : String
  context : String
  description : String
  /-- Whether the function runs on the server. -/
  onServer : Bool
  /-- Whether what the function logs is kept. -/
  keepsLogs : Bool
deriving DecidableEq, Repr

/-- What is sent to add a function with some code. -/
def uploadValue (args : AddArguments) (code : String) : Json :=
  .obj
    [("context", .str args.context), ("name", .str args.name),
     ("description", .str args.description), ("code", .str code), ("language", .str "python"),
     ("typeSchemas", .obj []), ("returnType", .null), ("returnTypeSchema", .obj []),
     ("arguments", .arr []), ("logsEnabled", .bool args.keepsLogs)]

/-- Where functions of a kind are sent to. -/
def uploadPath (onServer : Bool) : String :=
  if onServer then "/functions/server" else "/functions/client"

/-- The report on an added function. -/
def addReport (args : AddArguments) (id : String) : Report :=
  let kind := if args.onServer then "server" else "client"
  { value := .obj
      [("id", .str id), ("name", .str args.name), ("context", .str args.context),
       ("kind", .str kind)]
    description := fun style =>
      style.success ("Added " ++ kind ++ " function " ++
        style.cyan (FunctionPath.render ⟨args.context, args.name⟩) ++ " (id " ++ style.bold id ++
        ")") }

/-- The code in a file. -/
def readCode (file : String) : Action String := do
  match (← get).disk.read file with
  | .error cause => throw ⟨["failed to read " ++ file], .refusal cause⟩
  | .ok code =>
    if Text.isBlankText code then Action.because (file ++ " is empty") else return code

/-- Adds a function. -/
def addFunction (environment : Environment) (config : Config) (args : AddArguments) :
    Action ExitCode := do
  let client ←
    Action.within "cannot reach the Poly service" (Action.ofExcept (Client.ofConfig config))
  let code ← readCode args.file
  let answer ← Action.within ("failed to add function '" ++ args.name ++ "'")
    (Action.online (client.post (uploadPath args.onServer) (uploadValue args code)))
  match answer.getStr? "id" with
  | none => Action.because "the service did not return a function id"
  | some id =>
    Action.print environment (addReport args id)
    return .success

/-! ## Executing -/

/-- The word for a category in the addresses of functions that can be executed. -/
def executeKind? : Category → Option String
  | .apiFunction => some "api"
  | .serverFunction => some "server"
  | _ => none

/-- The function at a path, the first one if there are several. -/
def findFunction? (specs : List Spec) (path : FunctionPath) : Option Spec :=
  specs.find? fun spec =>
    spec.category.isFunction && spec.context == path.context && spec.name == path.name

/-- The names of a function's parameters. -/
def parameterNames (spec : Spec) : List String :=
  match spec.signature with
  | some signature => signature.parameters.map Parameter.name
  | none => []

/-- Values under the names of parameters; of two that share a name the later one counts. -/
def pairValues (names : List String) (values : List Json) : Members :=
  Members.insertAll [] (names.zip values)

/-- What is sent to execute a function with arguments in text. -/
def payload (spec : Spec) (arguments : Option String) : Except Failure Json :=
  match arguments.filter fun text => !Text.isBlankText text with
  | none => .ok (.obj [])
  | some text =>
    match Json.parse? text with
    | none => .error ⟨["arguments must be valid JSON"], .notJson⟩
    | some (.obj members) => .ok (.obj members)
    | some (.arr values) =>
      let names := parameterNames spec
      if names.length < values.length then
        .error <| .because (spec.qualifiedName ++ " takes " ++ toString names.length ++
          " arguments, " ++ toString values.length ++ " given")
      else .ok (.obj (pairValues names values))
    | some _ => .error (.because "arguments must be a JSON object or array")

/-- The report on an executed function. -/
def executeReport (spec : Spec) (result : Json) : Report :=
  { value := .obj
      [("function", .str spec.qualifiedName), ("id", .str spec.id), ("result", result)]
    description := fun style =>
      style.success (style.cyan spec.qualifiedName) ++ "\n" ++ result.pretty }

/-- Where arguments for a function are sent to. -/
def executePath (kind id : String) : String := "/functions/" ++ kind ++ "/" ++ id ++ "/execute"

/-- Executes the function that a text names. -/
def executeFunction (environment : Environment) (config : Config) (reference : String)
    (arguments : Option String) : Action ExitCode := do
  let client ←
    Action.within "cannot reach the Poly service" (Action.ofExcept (Client.ofConfig config))
  let specs ← Action.cachedSpecs config
  let path ←
    Action.ofExcept ((FunctionPath.parse reference).mapError FunctionPath.Refusal.toError)
  match findFunction? specs path with
  | none => Action.because ("function '" ++ reference ++ "' is not in the spec cache")
  | some spec =>
    match executeKind? spec.category with
    | none =>
      Action.because (spec.qualifiedName ++ " is a " ++ spec.category.name ++
        " and cannot be executed remotely")
    | some kind =>
      match payload spec arguments with
      | .error failure => throw failure
      | .ok sent =>
        let result ← Action.within ("failed to execute '" ++ reference ++ "'")
          (Action.online (client.post (executePath kind spec.id) sent))
        Action.print environment (executeReport spec result)
        return .success

end StubGen.Command
