import StubGen.Config.Address
import StubGen.Error

/-!
# Settings

What the generator has to know: where the service is and the key to it, where the package goes and
what it is called, and which schema engine makes the types.
-/

namespace StubGen

structure Config where
  apiKey : Option String
  baseUrl : Option String
  /-- The directory of the package; a leading `~` stands for the home directory. -/
  outputDirectory : String
  packageName : String
  /-- The command line of an external schema engine. -/
  schemaEngine : Option (List String)
  allowsCustomHosts : Bool
deriving DecidableEq, Repr

/-- What a client needs to reach the service. -/
structure Credentials where
  apiKey : String
  /-- The address of the service, without slashes at its end. -/
  baseUrl : String
deriving DecidableEq, Repr

namespace Config

/-- The settings of a user who has set nothing. -/
def initial : Config :=
  { apiKey := none, baseUrl := none, outputDirectory := "polyapi", packageName := "polyapi"
    schemaEngine := none, allowsCustomHosts := false }

instance : Inhabited Config := ⟨initial⟩

/-- The environment variables that override settings. -/
def apiKeyVariable : String := "POLY_API_KEY"

def baseUrlVariable : String := "POLY_API_BASE_URL"

def outputDirectoryVariable : String := "POLY_OUTPUT_DIR"

/-- Whether a package can be imported under a name. -/
def isPackageName (name : String) : Bool :=
  !name.isEmpty && name.toList.all fun c => c.isAlphanum || c = '_'

/-- Whether the service may be reached at an address. -/
def accepts (config : Config) (address : String) : Bool :=
  Address.isAccepted config.allowsCustomHosts address

/-- Refuses an address of the service that is not accepted, and a package name that cannot be
imported. -/
def validate (config : Config) : Except Error Unit :=
  match config.baseUrl.filter fun url => !config.accepts url with
  | some url =>
    .error <| .config ("'" ++ url ++ "' is not a valid API base URL " ++
      "(expected https://<region>.polyapi.io or a localhost URL)")
  | none =>
    if isPackageName config.packageName then .ok ()
    else .error (.config ("'" ++ config.packageName ++ "' is not a valid package name"))

/-- The key and the address of the service, when both are set and valid. -/
def credentials (config : Config) : Except Error Credentials :=
  match config.apiKey, config.baseUrl with
  | none, _ => .error (.missingCredentials ("api_key (" ++ apiKeyVariable ++ ")"))
  | some _, none => .error (.missingCredentials ("api_base_url (" ++ baseUrlVariable ++ ")"))
  | some key, some url => do
    config.validate
    return ⟨key, Address.trimSlashes url⟩

/-- Settings with those that the environment overrides; empty variables do not count. -/
def applyEnvironment (config : Config) (environment : String → Option String) : Config :=
  let set (variable_ : String) : Option String := (environment variable_).filter fun v => !v.isEmpty
  { config with
    apiKey := (set apiKeyVariable).or config.apiKey
    baseUrl := (set baseUrlVariable).or config.baseUrl
    outputDirectory := (set outputDirectoryVariable).getD config.outputDirectory }

end Config

end StubGen
