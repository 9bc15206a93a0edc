import StubGen.Command.Session

/-!
# Sending rendered stubs

The stubs of API and server functions are sent to the service, where they serve as documentation.
Each is sent by itself; what goes wrong with one is reported and does not stop the others.
-/

namespace StubGen.Command

/-- The key for the id of a function of a category, if its stub can be sent. -/
def idKey? : Category → Option String
  | .apiFunction => some "apiFunctionId"
  | .serverFunction => some "customFunctionId"
  | _ => none

/-- What is sent for a spec; nothing for specs whose stubs the service does not keep. -/
def renderedUpload (renderer : Renderer) (spec : Spec) : Except Error (Option Json) :=
  match idKey? spec.category with
  | none => .ok none
  | some key => do
    let stub ← renderer.render spec
    return some <| .obj
      [("language", .str "python"), ("signature", .str stub.source),
       ("typedefs", .str stub.typeDefs), (key, .str spec.id)]

/-- The specs whose stubs can be sent, with their references resolved. -/
def selectUploadable (specs : List Spec) (contexts : List String) : List Spec :=
  let query : Query := { Query.everything with contexts := contexts }
  ((SchemaIndex.ofSpecs specs).apply specs).items.filter fun spec =>
    (idKey? spec.category).isSome && query.matchesContext spec.context

/-- Where rendered stubs are sent to. -/
def renderedSpecsPath : String := "/functions/rendered-specs"

/-- Sends the stub of a spec. -/
def upload (renderer : Renderer) (client : Client) (spec : Spec) : Action Unit := do
  match ← Action.ofExcept (renderedUpload renderer spec) with
  | none => return ()
  | some body =>
    let _ ← Action.online (client.post renderedSpecsPath body)
    return ()

/-- The names of specs whose stubs were sent, and what went wrong with the others. -/
structure Uploads where
  updated : List String
  failed : List String

/-- Sends the stubs of some specs, one after another. -/
def uploadAll (renderer : Renderer) (client : Client) : List Spec → Action Uploads
  | [] => return ⟨[], []⟩
  | spec :: specs => do
    let result ← ExceptT.lift (upload renderer client spec).run
    let others ← uploadAll renderer client specs
    match result with
    | .ok () => return { others with updated := spec.qualifiedName :: others.updated }
    | .error failure =>
      return { others with
        failed := (spec.identity ++ ": " ++ failure.message) :: others.failed }

/-- The report on what was sent. -/
def uploadReport (uploads : Uploads) : Report :=
  { value := .obj
      [("updated", .arr (uploads.updated.map .str)), ("failed", .arr (uploads.failed.map .str))]
    description := fun style =>
      Text.join "\n" <|
        style.success ("Updated " ++ style.cyan (toString uploads.updated.length) ++
            " rendered specs") ::
          uploads.failed.map fun failure => "  " ++ style.failure failure }

/-- Sends the stubs of the specs that the last run has left. -/
def updateRenderedSpecs (environment : Environment) (config : Config) (contexts : List String) :
    Action ExitCode := do
  let client ←
    Action.within "cannot update rendered specs" (Action.ofExcept (Client.ofConfig config))
  let specs ← Action.cachedSpecs config
  let uploads ←
    uploadAll (environment.renderer config) client (selectUploadable specs contexts)
  Action.print environment (uploadReport uploads)
  return if uploads.failed.isEmpty then .success else .failure

end StubGen.Command
