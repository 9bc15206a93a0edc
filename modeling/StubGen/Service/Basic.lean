import StubGen.Config.Basic
import StubGen.Json.Printer
import StubGen.Json.Reader
import StubGen.Query
import StubGen.Service.Origin
import StubGen.Service.Url
import StubGen.Spec.Decode

/-!
# The service

Clients send requests to the service and read JSON from its answers. What the service will answer,
request after request, is part of its state, and so are the requests that it has seen.
-/

namespace StubGen

inductive Method where
  | get
  | post
deriving DecidableEq, Repr

/-- The word for a method in a request. -/
def Method.word : Method → String
  | .get => "GET"
  | .post => "POST"

structure Request where
  method : Method
  target : String
  authorization : String
  body : Option String
deriving DecidableEq, Repr

structure Response where
  status : Nat
  body : String
deriving DecidableEq, Repr

/-- A service on the local host. -/
structure Service where
  /-- The endpoint of the local host at which it listens, if it is running. -/
  endpoint : Option Nat
  /-- Its answers to the coming requests. -/
  answers : List Response
  /-- Its answer to all later requests. -/
  lastAnswer : Response
  /-- The requests that have come in, the first one first. -/
  requests : List Request

namespace Service

/-- A service that does not run. -/
def absent : Service := ⟨none, [], ⟨503, ""⟩, []⟩

/-- Takes in a request and answers it. White space at the end of a line of the request's head does
not count. -/
def answer (request : Request) : StateM Service Response := do
  let service ← get
  let seen := { request with authorization := Text.trimEnd request.authorization }
  let service := { service with requests := service.requests ++ [seen] }
  match service.answers with
  | [] =>
    set service
    return service.lastAnswer
  | answer :: answers =>
    set { service with answers := answers }
    return answer

end Service

/-- One who may send requests to the service. -/
structure Client where
  baseUrl : String
  apiKey : String
deriving DecidableEq, Repr

/-- A step in which requests may be sent. -/
abbrev Online := ExceptT Error (StateM Service)

namespace Client

/-- A client for an address, at whose end slashes do not count. -/
def mkTrimmed (baseUrl apiKey : String) : Client := ⟨Address.trimSlashes baseUrl, apiKey⟩

/-- The client with the credentials among some settings. -/
def ofConfig (config : Config) : Except Error Client :=
  config.credentials.map fun c => mkTrimmed c.baseUrl c.apiKey

/-- The address of a path at the service. -/
def url (client : Client) (path : String) : String :=
  client.baseUrl ++ "/" ++ String.ofList (path.toList.dropWhile (· = '/'))

/-- Whether a character may stand in a line of a request's head. -/
def isHeaderChar (c : Char) : Bool := c = '\t' || (32 ≤ c.toNat && c.toNat ≠ 127)

/-- The request for what follows the origin in an address. -/
def request (client : Client) (method : Method) (target : String)
    (parameters : List (String × String)) (body : Option Json) : Request :=
  let sent := Url.target target
  { method := method
    target := if parameters.isEmpty then sent else sent ++ "?" ++ Url.formPairs parameters
    authorization := "Bearer " ++ client.apiKey
    body := body.map Json.compact }

/-- Why nothing that can be read comes back from the service, if it is so. A status has three
digits, and one below 200 only announces the answer, unless it gives up the protocol. -/
def brokenAnswer? (response : Response) : Option String :=
  if response.status < 100 || 999 < response.status then
    some "invalid HTTP status-code parsed"
  else if 200 ≤ response.status || response.status = 101 then none
  else if response.body.isEmpty then some "connection closed before message completed"
  else some "invalid HTTP version parsed"

/-- Hands a request to the service at an origin; nothing comes back when it cannot be reached or
its answer cannot be read. -/
def exchange (url : String) (origin : Origin) (request : Request) : Online Response := do
  if !request.authorization.toList.all isHeaderChar then
    throw (.sourceUnavailable url ["builder error", "failed to parse header value"])
  let failed (causes : List String) : Error :=
    .sourceUnavailable url
      (("error sending request for url (" ++ origin.render ++ request.target ++ ")") :: causes)
  if origin.isSecure then
    throw (failed ["client error (Connect)", "invalid URL, scheme is not http"])
  let service ← get
  if !service.endpoint.any origin.isLocal then
    throw (failed
      ["client error (Connect)", "tcp connect error", "Connection refused (os error 111)"])
  let response ← ExceptT.lift (Service.answer request)
  match brokenAnswer? response with
  | some cause => throw (failed ["client error (SendRequest)", cause])
  | none => return response

/-- Whether a status says that all went well. -/
def isSuccess (status : Nat) : Bool := 200 ≤ status && status < 300

/-- The text of an answer; some answers have no text. -/
def bodyText (response : Response) : String :=
  if [101, 204, 304].contains response.status then "" else response.body

/-- The JSON in an answer; blank text stands for null. -/
def readAnswer (response : Response) : Except Error Json :=
  let body := bodyText response
  if !isSuccess response.status then .error (.remote response.status body)
  else if Text.isBlankText body then .ok .null
  else
    match Json.parse? body with
    | some value => .ok value
    | none => .error (.serialization "invalid JSON")

/-- Sends a request and reads the JSON in the answer. -/
def send (client : Client) (method : Method) (path : String)
    (parameters : List (String × String)) (body : Option Json) : Online Json := do
  let url := client.url path
  let (origin, target) ← ((Origin.read url).mapError fun refusal =>
    .sourceUnavailable url ["builder error", refusal.message] : Except Error (Origin × String))
  let response ← exchange url origin (client.request method target parameters body)
  match readAnswer response with
  | .ok value => return value
  | .error e => throw e

/-- Asks for what is at a path. -/
def get (client : Client) (path : String) (parameters : List (String × String)) : Online Json :=
  client.send .get path parameters none

/-- Sends JSON to a path. -/
def post (client : Client) (path : String) (body : Json) : Online Json :=
  client.send .post path [] (some body)

/-- What the client is called when specs are fetched with it. -/
def description (client : Client) : String := client.url "/specs"

/-- The specs that the service has for a query. Entries that are no specs are passed over. -/
def fetch (client : Client) (query : Query) : Online (List Spec) := do
  match ← client.get "/specs" query.parameters with
  | .arr values => return (Spec.parseMany values).1.filter query.accepts
  | _ => throw (.serialization (client.description ++ " did not return a JSON array"))

end Client

end StubGen
