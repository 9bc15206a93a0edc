import StubGen.Command.Generate
import StubGen.Command.Line
import StubGen.Command.RenderedSpec

/-!
# Running the program

A command line is read, the settings are loaded, and the command is run. Whatever goes wrong ends
in messages for the user and an exit code.
-/

namespace StubGen.Command

/-- Carries out a task with some settings. -/
def perform (environment : Environment) (context : ConfigContext) : Task → Action ExitCode
  | .generate query => generate environment context.config query
  | .clear => clear environment context.config
  | .setup args => setup environment context args
  | .addFunction args => addFunction environment context.config args
  | .executeFunction reference arguments =>
    executeFunction environment context.config reference arguments
  | .updateRenderedSpecs contexts => updateRenderedSpecs environment context.config contexts

/-- How the program is run. -/
structure Surroundings where
  programs : Programs
  clientId : Spec → String
  style : Style
  /-- The values of environment variables. -/
  fromEnvironment : String → Option String

/-- Where the settings for a command line are kept, if anywhere. -/
def settingsPath? (surroundings : Surroundings) (line : Line) (home : Option String) :
    Option String :=
  line.config.or (ConfigContext.defaultPath? (surroundings.fromEnvironment "XDG_CONFIG_HOME") home)

/-- The settings for a command line. -/
def settings (surroundings : Surroundings) (line : Line) (disk : Disk) :
    Except Error ConfigContext := do
  let context ←
    ConfigContext.load (settingsPath? surroundings line disk.home) surroundings.fromEnvironment disk
  match line.output with
  | none => return context
  | some directory =>
    return { context with config := { context.config with outputDirectory := directory } }

/-- The paths that a command line looks at whatever the settings say. -/
def fixedPaths (surroundings : Surroundings) (line : Line) (home : Option String) : List String :=
  (settingsPath? surroundings line home).toList ++
    match line.task with
    | .addFunction args => [args.file]
    | _ => []

/-- Carries out a command line. -/
def runLine (surroundings : Surroundings) (line : Line) : Action ExitCode := do
  let format ← Action.ofExcept (OutputFormat.parse line.format)
  let context ← Action.within "failed to load configuration"
    (Action.ofExcept (settings surroundings line (← get).disk))
  let environment : Environment :=
    { programs := surroundings.programs, clientId := surroundings.clientId
      format := format, style := surroundings.style }
  perform environment context line.task

/-- What a run of the program leaves for whoever has called it. -/
structure Exit where
  code : ExitCode
  /-- Whether the command line could not be read. -/
  isMisuse : Bool
  /-- What is printed about errors. -/
  complaint : String
deriving DecidableEq, Repr

/-- The version of the program. -/
def versionText : String := "polygen 0.1.0\n"

/-- How the program is used. -/
def usage : String := "Usage: polygen [OPTIONS] <COMMAND>\n"

/-- Ends a run with some text for the user. -/
def printed (session : Session) (text : String) : Exit × Session :=
  (⟨.success, false, ""⟩, { session with output := session.output ++ text })

/-- Runs the program with the words of a command line. -/
def run (surroundings : Surroundings) (words : List String) (session : Session) :
    Exit × Session :=
  match parseLine words with
  | .error .version => printed session versionText
  | .error .help => printed session usage
  | .error .misuse => (⟨.invalidInput, true, usage⟩, session)
  | .ok line =>
    match (runLine surroundings line).run.run session with
    | (.ok code, session) => (⟨code, false, ""⟩, session)
    | (.error failure, session) =>
      (⟨failure.exitCode, false,
        surroundings.style.paint "1;31" "error:" ++ " " ++ failure.message ++ "\n"⟩, session)

end StubGen.Command
