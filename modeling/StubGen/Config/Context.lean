import StubGen.Config.File
import StubGen.Package.SpecCache

/-!
# Settings and where they are kept

The settings in force come from the defaults, the settings file and the environment, in this
order. They can be stored in the file, read again, or wiped.
-/

namespace StubGen

/-- Settings and the file that they are kept in, if there is one. -/
structure ConfigContext where
  path : Option String
  config : Config
deriving DecidableEq, Repr

namespace ConfigContext

/-- The defaults, kept nowhere. -/
def initial : ConfigContext := ⟨none, .initial⟩

/-- What the file at a path says, nothing if there is no file. -/
def readFile (path : String) (disk : Disk) : Except Error (Option ConfigFile) :=
  if !disk.isThere path then .ok none
  else
    match disk.read path with
    | .error cause => .error (.io (.of path cause))
    | .ok text =>
      match ConfigFile.parse? text with
      | some file => .ok (some file)
      | none => .error (.config ("failed to parse " ++ path))

/-- The settings from the file at a path and the environment. -/
def load (path : Option String) (environment : String → Option String) (disk : Disk) :
    Except Error ConfigContext := do
  let file ← match path with
    | some path => readFile path disk
    | none => pure none
  let stored := match file with
    | some file => Config.initial.applyFile file
    | none => .initial
  return ⟨path, stored.applyEnvironment environment⟩

/-- The settings read again from where they are kept. -/
def reload (context : ConfigContext) (environment : String → Option String) (disk : Disk) :
    Except Error ConfigContext :=
  load context.path environment disk

/-- A step on the disk that reports errors of the library. -/
abbrev OnSettings := ExceptT Error (StateM Disk)

/-- Removes the file and resets every setting. -/
def clear (context : ConfigContext) : OnSettings ConfigContext := do
  if let some path := context.path then
    let disk ← get
    if disk.isThere path then
      match disk.removeFile path with
      | .ok disk => set disk
      | .error cause => throw (.io (.of path cause))
  return { context with config := .initial }

/-- Makes the directory around a path. -/
def createParent (path : String) : OnSettings Unit := do
  if let some parent := Disk.Path.parent? path then
    let (result, disk) := (← get).createDirectories parent
    set disk
    match result with
    | .ok () => return ()
    | .error cause => throw (.io (.of parent cause))

/-- Stores the settings in the file. -/
def save (context : ConfigContext) : OnSettings Unit := do
  match context.path with
  | none => throw (.config "no configuration file location available")
  | some path =>
    createParent path
    match (← get).writeFile path context.config.toFile.render with
    | .ok disk => set disk
    | .error cause => throw (.io (.of path cause))

/-- Where the settings of a user are kept: below the directory for settings, which is the given
one when its path is absolute, else the usual one in the home directory. -/
def defaultPath? (configDirectory home : Option String) : Option String :=
  let below (directory : String) : String :=
    Disk.Path.join (Disk.Path.join directory "polygen") "config.toml"
  match configDirectory.filter Disk.Path.isAbsolute with
  | some directory => some (below directory)
  | none => home.map fun directory => below (Disk.Path.join directory ".config")

end ConfigContext

end StubGen
