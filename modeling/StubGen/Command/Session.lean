import StubGen.Command.Output
import StubGen.Config.Context
import StubGen.Package.Generation
import StubGen.Schema.CommandEngine
import StubGen.Service.Basic

/-!
# Sessions

A command works on a disk and a service, and leaves text for the user. This module holds what all
commands share: the session, the ways to report a failure in it, and the parts that the settings
decide.
-/

namespace StubGen

/-- What a command works on, and what it has printed. -/
structure Session where
  disk : Disk
  service : Service
  output : String

/-- What a command is run with. -/
structure Environment where
  /-- The programs that can serve as schema engines. -/
  programs : Programs
  /-- The id under which the client of a webhook goes. -/
  clientId : Spec → String
  format : OutputFormat
  style : Style

/-- A step of a command. -/
abbrev Action := ExceptT Failure (StateM Session)

namespace Action

/-- A step that fails for a reason of its own. -/
def because {α : Type} (reason : String) : Action α := throw (.because reason)

/-- The failures of a step seen from further up. -/
def within {α : Type} (context : String) (step : Action α) : Action α :=
  ExceptT.adapt (fun failure => failure.within context) step

/-- A result as a step. -/
def ofExcept {α : Type} (result : Except Error α) : Action α :=
  match result with
  | .ok value => return value
  | .error e => throw (.ofError e)

/-- A step on the disk as a step of a command. -/
def onDisk {α : Type} (step : ExceptT Error (StateM Disk) α) : Action α := do
  let session ← get
  let (result, disk) := step.run.run session.disk
  set { session with disk := disk }
  ofExcept result

/-- A step with the service as a step of a command. -/
def online {α : Type} (step : Online α) : Action α := do
  let session ← get
  let (result, service) := step.run.run session.service
  set { session with service := service }
  ofExcept result

/-- Prints a report. -/
def print (environment : Environment) (report : Report) : Action Unit :=
  modify fun session =>
    { session with
      output := session.output ++ report.render environment.format environment.style ++ "\n" }

end Action

namespace Environment

/-- The renderer that some settings ask for. -/
def renderer (environment : Environment) (config : Config) : Renderer :=
  { package := config.packageName
    engine := Schema.engineOf environment.programs (config.schemaEngine.getD [])
    clientId := environment.clientId }

end Environment

/-- The directory of the package, with the home directory in place of `~`. -/
def Config.packageRoot (config : Config) (disk : Disk) : String :=
  Disk.Path.expandHome disk.home config.outputDirectory

/-- The specs that the last run has left. -/
def Action.cachedSpecs (config : Config) : Action (List Spec) := do
  let disk := (← get).disk
  let cache := SpecCache.ofPackage (config.packageRoot disk)
  if !cache.isThere disk then
    Action.because
      ("no spec cache at " ++ cache.path ++ " (run \x60polygen generate\x60 first)")
  match cache.read disk with
  | .ok specs => return specs
  | .error e => throw ⟨["failed to read " ++ cache.path], .package e⟩

end StubGen
