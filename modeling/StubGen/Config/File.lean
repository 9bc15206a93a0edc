import StubGen.Config.Basic
import StubGen.Toml.Reader

/-!
# The settings file

A TOML document with a key for each setting. Keys that are absent leave a setting as it is, except
that custom hosts are allowed only by a file that says so; other keys do not count.
-/

namespace StubGen

/-- What a settings file says. -/
structure ConfigFile where
  apiKey : Option String
  baseUrl : Option String
  outputDirectory : Option String
  packageName : Option String
  schemaEngine : Option (List String)
  allowsCustomHosts : Bool
deriving DecidableEq, Repr

namespace ConfigFile

/-- A text, and nothing else. -/
def text? : Toml.Value → Option String
  | .text text => some text
  | _ => none

def boolean? : Toml.Value → Option Bool
  | .boolean value => some value
  | _ => none

def texts? : Toml.Value → Option (List String)
  | .array items => items.mapM text?
  | _ => none

/-- What is under a key, if anything; fails when it is of another kind. -/
def field? {α : Type} (entries : Toml.Entries) (key : String) (read : Toml.Value → Option α) :
    Option (Option α) :=
  match entries.lookup key with
  | none => some none
  | some value => (read value).map some

/-- What a table says; nothing if one of the keys holds a value of another kind. -/
def ofEntries? (entries : Toml.Entries) : Option ConfigFile := do
  let apiKey ← field? entries "api_key" text?
  let baseUrl ← field? entries "api_base_url" text?
  let outputDirectory ← field? entries "output_dir" text?
  let packageName ← field? entries "package_name" text?
  let schemaEngine ← field? entries "schema_engine" texts?
  let allowsCustomHosts ← field? entries "allow_custom_hosts" boolean?
  return { apiKey := apiKey, baseUrl := baseUrl, outputDirectory := outputDirectory
           packageName := packageName, schemaEngine := schemaEngine
           allowsCustomHosts := allowsCustomHosts.getD false }

/-- What a document says. -/
def parse? (text : String) : Option ConfigFile := (Toml.parse? text).bind ofEntries?

/-- A line of the file, absent settings left out. -/
def line (key : String) (value : Option String) : String :=
  match value with
  | some spelling => key ++ " = " ++ spelling ++ "\n"
  | none => ""

/-- A list of texts: two and more stand on lines of their own. -/
def renderList : List String → String
  | [] => "[]"
  | [item] => "[" ++ Toml.renderText item ++ "]"
  | items =>
    "[\n" ++ String.join (items.map fun item => "    " ++ Toml.renderText item ++ ",\n") ++ "]"

/-- The file as a document. -/
def render (file : ConfigFile) : String :=
  line "api_key" (file.apiKey.map Toml.renderText) ++
  line "api_base_url" (file.baseUrl.map Toml.renderText) ++
  line "output_dir" (file.outputDirectory.map Toml.renderText) ++
  line "package_name" (file.packageName.map Toml.renderText) ++
  line "schema_engine" (file.schemaEngine.map renderList) ++
  line "allow_custom_hosts" (some (if file.allowsCustomHosts then "true" else "false"))

end ConfigFile

namespace Config

/-- Settings with those that a file sets. -/
def applyFile (config : Config) (file : ConfigFile) : Config :=
  { apiKey := file.apiKey.or config.apiKey
    baseUrl := file.baseUrl.or config.baseUrl
    outputDirectory := file.outputDirectory.getD config.outputDirectory
    packageName := file.packageName.getD config.packageName
    schemaEngine := file.schemaEngine.or config.schemaEngine
    allowsCustomHosts := file.allowsCustomHosts }

/-- The file that holds some settings. -/
def toFile (config : Config) : ConfigFile :=
  { apiKey := config.apiKey, baseUrl := config.baseUrl
    outputDirectory := some config.outputDirectory, packageName := some config.packageName
    schemaEngine := config.schemaEngine, allowsCustomHosts := config.allowsCustomHosts }

end Config

end StubGen
