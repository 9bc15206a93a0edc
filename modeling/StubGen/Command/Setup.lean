import StubGen.Command.Generate

/-!
# Setting up

The user gives the address of the service and the key, both are checked and stored, and the
package is generated. What is not given would have to be asked for, which takes a terminal.
-/

namespace StubGen.Command

/-- What the user gives. -/
structure SetupArguments where
  apiKey : Option String
  baseUrl : Option String
  /-- Whether nothing is generated. -/
  skipsGenerating : Bool
deriving DecidableEq, Repr

/-- Asks the user, which fails without a terminal. -/
def ask {α : Type} : Action α :=
  Action.within "failed to read user input" (Action.because "IO error: not a terminal")

/-- The address that the user gives. -/
def chosenUrl (config : Config) (args : SetupArguments) : Action String :=
  match args.baseUrl with
  | none => ask
  | some url =>
    if config.accepts url then return url
    else Action.because ("'" ++ url ++ "' is not a valid Poly API base URL")

/-- The key that the user gives. -/
def chosenKey (args : SetupArguments) : Action String :=
  match args.apiKey with
  | none => ask
  | some key =>
    if Text.isBlankText key then Action.because "API key cannot be empty" else return key

/-- The settings with the address and the key that the user gives. -/
def withCredentials (config : Config) (url key : String) : Config :=
  { config with baseUrl := some (Address.trimSlashes url), apiKey := some key }

/-- Checks and stores what the user gives, and the settings in force with it. -/
def storeSettings (context : ConfigContext) (args : SetupArguments) : Action Config := do
  let url ← chosenUrl context.config args
  let key ← chosenKey args
  let config := withCredentials context.config url key
  Action.within "invalid configuration" (Action.ofExcept config.validate)
  Action.within "failed to save configuration"
    (Action.onDisk (ConfigContext.save { context with config := config }))
  return config

/-- Stores what the user gives, and generates the package. -/
def setup (environment : Environment) (context : ConfigContext) (args : SetupArguments) :
    Action ExitCode := do
  let config ← storeSettings context args
  if args.skipsGenerating then return .success
  generate environment config .everything

end StubGen.Command
