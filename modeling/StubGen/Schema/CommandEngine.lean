import StubGen.Json.Printer
import StubGen.Schema.Resolution

/-!
# Schema engines that are programs

A program can serve as the engine: it finds the schema in one file and leaves the declarations in
another. What the program is told is a template, in which marks stand for the two files and for
the name of the root. What programs there are is a parameter.
-/

namespace StubGen

/-- Files by their paths, as a program sees them. -/
abbrev Files := List (String × String)

namespace Files

/-- Stores the content of a file, in place of an older one. -/
def put (path content : String) : Files → Files
  | [] => [(path, content)]
  | (p, c) :: rest => if p = path then (p, content) :: rest else (p, c) :: put path content rest

end Files

/-- What a program has done by the time it ends. -/
structure ProgramRun where
  succeeded : Bool
  /-- What the program has written about errors. -/
  complaints : String
  files : Files

/-- The programs that there are: a name, arguments and files give a run, or nothing when there is
no such program. -/
abbrev Programs := String → List String → Files → Option ProgramRun

/-- A program that serves as an engine, and the template of its arguments. -/
structure CommandEngine where
  program : String
  arguments : List String
deriving DecidableEq, Repr

namespace CommandEngine

/-- The engine that a command line names. -/
def ofCommandLine? : List String → Option CommandEngine
  | [] => none
  | program :: arguments => some ⟨program, arguments⟩

/-- The file in which the program finds the schema. -/
def inputPath : String := "/tmp/polygen_schema.json"

/-- The file in which the program leaves the declarations. -/
def outputPath : String := "/tmp/polygen_output.py"

/-- The arguments for a root: every mark replaced by what it stands for. -/
def argumentsFor (engine : CommandEngine) (root : String) : List String :=
  engine.arguments.map fun argument =>
    Text.replace "\x7broot\x7d" root
      (Text.replace "\x7boutput\x7d" outputPath
        (Text.replace "\x7binput\x7d" inputPath argument))

/-- The last line of a text that is not blank. -/
def lastLine (text : String) : String :=
  match (Text.lines text).reverse.find? fun line => !Text.isBlankText line with
  | some line => Text.trim line
  | none => "unknown failure"

/-- Why a program has failed, by what it has written. -/
def failureOf (complaints : String) : Schema.SchemaError :=
  let detail := lastLine complaints
  if Text.contains "RecursionError" complaints then .recursionLimit detail
  else if Text.contains "CannotDetermineSpecification" complaints then .danglingReference detail
  else .engineFailure detail

/-- The declarations that the program makes from a schema. -/
def generate (programs : Programs) (engine : CommandEngine) : Schema.Engine := fun schema root =>
  let files := [(inputPath, schema.compact), (outputPath, "")]
  match programs engine.program (engine.argumentsFor root) files with
  | none => .error (.engineFailure "failed to spawn schema engine")
  | some run =>
    if !run.succeeded then .error (failureOf run.complaints)
    else
      match run.files.lookup outputPath with
      | some source => .ok source
      | none => .error (.engineFailure "failed to read schema engine output")

/-- What engines of this kind are called. -/
def kindName : String := "command"

end CommandEngine

/-- What the engine of this library is called. -/
def Schema.builtinEngineName : String := "typeddict"

/-- The engine for a command line; an empty one stands for the engine of this library. -/
def Schema.engineOf (programs : Programs) (commandLine : List String) : Engine :=
  match CommandEngine.ofCommandLine? commandLine with
  | some engine => engine.generate programs
  | none => builtinEngine

end StubGen
