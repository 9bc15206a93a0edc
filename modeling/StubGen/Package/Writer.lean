import StubGen.Package.Transaction
import StubGen.Stub.Package

/-!
# Writing packages

A package is a tree of directories, each with an aggregator, a module that imports the
directories and the type modules beside it and holds the declarations of its namespace. Writing a
stub, or the package's own files, is one transaction.
-/

namespace StubGen

/-- The aggregator of a directory. -/
def aggregatorName : String := "__init__.py"

/-- The files at the top of a package that belong to it. -/
def rootFiles : List String := [aggregatorName, "runtime.py"]

/-- Where a package is, and what each aggregator of a section begins with. -/
structure PackageWriter where
  root : String
  preamble : Section → String

namespace PackageWriter

open Transaction

/-- A writer of what a renderer renders. -/
def ofRenderer (root : String) (renderer : Renderer) : PackageWriter := ⟨root, renderer.preamble⟩

/-- The content of a file, empty if it is missing. -/
def readOrEmpty (path : String) : Writing String := do
  match ← onDisk (.attempt fun disk => return (← disk.read path, disk)) with
  | .ok content => return content
  | .error .notFound => return ""
  | .error cause => throw (.ofIo path cause)

/-- A text with a line end behind it, unless it is empty or has one. -/
def closeLine (content : String) : String :=
  if content.isEmpty || (Text.before? "\n" content).isSome then content else content ++ "\n"

/-- Whether a text has a line, white space at its end not counting. -/
def hasLine (content line : String) : Bool :=
  (Text.lines content).any fun l => Text.trimEnd l == line

/-- A text with a line at its end, which begins on a line of its own. -/
def withLine (content line : String) : String := closeLine content ++ line ++ "\n"

/-- Adds the import of a module to an aggregator, unless it is there. -/
def appendImport (aggregator child : String) : Writing Bool := do
  let content ← readOrEmpty aggregator
  let line := Renderer.importLine child
  if hasLine content line then return false
  writeFile aggregator (withLine content line)
  return true

/-- Makes a directory and its aggregator, unless they are there. -/
def ensureAggregator (w : PackageWriter) (directory : String) (root : Section) :
    Writing String := do
  createDirectories directory
  let aggregator := Disk.Path.join directory aggregatorName
  if !(← get).disk.isThere aggregator then writeFile aggregator (w.preamble root)
  return aggregator

/-- Makes the directories of a path below one, each imported by the aggregator of the one around
it, and gives the innermost one. -/
def enter (w : PackageWriter) (root : Section) (directory : String) :
    Option String → List String → Writing String
  | _, [] => return directory
  | parent, name :: names => do
    let inner := Disk.Path.join directory name
    let aggregator ← w.ensureAggregator inner root
    if let some above := parent then
      let _ ← appendImport above name
    w.enter root inner (some aggregator) names

/-- The content of an aggregator with the import of a module of types. -/
def withTypeImport (content module_ : String) : String :=
  let line := Renderer.importLine module_
  if hasLine content line then content else content ++ line ++ "\n"

/-- The content of an aggregator with a declaration at its end. -/
def withSource (content source : String) : String :=
  content ++ "\n" ++ Text.trimEnd source ++ "\n\n"

/-- Writes a stub. -/
def writeIn (w : PackageWriter) (stub : Stub) : Writing Unit := do
  let directory ← w.enter stub.path.root w.root none stub.path.directories
  let aggregator := Disk.Path.join directory aggregatorName
  let content := closeLine (← readOrEmpty aggregator)
  if stub.hasTypeDefs then
    let types := Identifier.typeModule stub.path.leaf
    writeFile (Disk.Path.join directory (types ++ ".py")) stub.typeDefs
    writeFile aggregator (withSource (withTypeImport content types) stub.source)
  else writeFile aggregator (withSource content stub.source)

/-- Writes a stub: all of it or nothing. -/
def write (w : PackageWriter) (stub : Stub) (disk : Disk) : Except PackageError Unit × Disk :=
  if stub.isEmpty then (.error (.emptyContent stub.path.render), disk)
  else atomically (w.writeIn stub) disk

/-- A path of the package on the disk. -/
def insidePath (root relative : String) : Except PackageError String :=
  if Disk.Path.isInside relative then .ok (Disk.Path.join root relative)
  else .error (.invalidPath relative "must be a relative path inside the package")

/-- Writes one of the package's own files. -/
def writeOwnFile (w : PackageWriter) (file : PackageFile) : Writing Unit := do
  let path ← (insidePath w.root file.path : Except PackageError String)
  if let some parent := Disk.Path.parent? path then createDirectories parent
  writeFile path file.content

/-- Writes the package's own files and the aggregators of its sections. -/
def initIn (w : PackageWriter) (files : List PackageFile) : Writing Unit := do
  createDirectories w.root
  files.forM w.writeOwnFile
  Section.all.forM fun root => do
    let _ ← w.ensureAggregator (Disk.Path.join w.root root.directory) root

/-- Starts a package: all of it or nothing. -/
def init (w : PackageWriter) (files : List PackageFile) (disk : Disk) :
    Except PackageError Unit × Disk :=
  atomically (w.initIn files) disk

/-- Adds the import of a module to an aggregator: says whether it was not there. -/
def addImport (aggregator child : String) (disk : Disk) : Except PackageError Bool × Disk :=
  atomically (appendImport aggregator child) disk

/-- Removes something if it is there: says how many things that is. -/
def removeIf (isThere : Bool) (path : String) (removed : Except IoCause Disk) : OnDisk Nat :=
  if isThere then
    match removed with
    | .ok disk => do
      set disk
      return 1
    | .error cause => throw (.ofIo path cause)
  else return 0

/-- Removes what a former run has left: the directories of the sections and the package's own
files. Says how many things that is. -/
def removeOldLibrary (w : PackageWriter) : OnDisk Nat := do
  let sections ← Section.all.mapM fun root => do
    let path := Disk.Path.join w.root root.directory
    let disk ← get
    removeIf (disk.isDirectory path) path (disk.removeAll path)
  let files ← rootFiles.mapM fun name => do
    let path := Disk.Path.join w.root name
    let disk ← get
    removeIf (disk.isFile path) path (disk.removeFile path)
  return (sections ++ files).foldl (· + ·) 0

end PackageWriter

end StubGen
