import StubGen.Package.Writer
import StubGen.Query
import StubGen.Spec.Encode
import StubGen.Json.Reader

/-!
# The spec cache

Each run leaves the specs it was made from beside the package, as a JSON array, and later commands
read them back. Entries that are no specs are passed over.
-/

namespace StubGen

/-- A file that holds specs. -/
structure SpecCache where
  path : String
deriving DecidableEq, Repr

namespace SpecCache

/-- The name of the cache in a package. -/
def fileName : String := "specs.json"

/-- The cache of the package at a place. -/
def ofPackage (root : String) : SpecCache := ⟨Disk.Path.join root fileName⟩

def isThere (cache : SpecCache) (disk : Disk) : Bool := disk.isFile cache.path

/-- Specs as the text of a cache. -/
def render (specs : List Spec) : String := (Json.arr (specs.map Spec.encode)).pretty

/-- Makes the directory around the cache. -/
def createParent (cache : SpecCache) : OnDisk Unit :=
  match Disk.Path.parent? cache.path with
  | none => return ()
  | some parent => do
    let (result, disk) := (← get).createDirectories parent
    set disk
    match result with
    | .ok () => return ()
    | .error cause => throw (.ofIo parent cause)

/-- Stores specs in place of whatever the cache held. -/
def write (cache : SpecCache) (specs : List Spec) : OnDisk Unit := do
  cache.createParent
  match (← get).writeAtomic cache.path (render specs) with
  | .ok disk => set disk
  | .error e => throw e

/-- The specs that a text of a cache holds, nothing if it is no JSON array. -/
def parse? (text : String) : Option (List Spec) := do
  let value ← Json.parse? text
  let values ← value.arr?
  return (Spec.parseMany values).1

/-- The specs in the cache. -/
def read (cache : SpecCache) (disk : Disk) : Except PackageError (List Spec) :=
  match disk.read cache.path with
  | .error cause => .error (.ofIo cache.path cause)
  | .ok text =>
    match parse? text with
    | some specs => .ok specs
    | none => .error (.cacheFormat cache.path "not a list of specs")

/-- Removes the cache: says whether it was there. -/
def remove (cache : SpecCache) : OnDisk Bool := do
  match (← get).removeFile cache.path with
  | .ok disk =>
    set disk
    return true
  | .error .notFound => return false
  | .error cause => throw (.ofIo cache.path cause)

/-- What the cache is called when specs are read from it. -/
def description (cache : SpecCache) : String := "file " ++ cache.path

/-- The specs in the cache that a query wants. -/
def fetch (cache : SpecCache) (query : Query) (disk : Disk) : Except Error (List Spec) :=
  ((cache.read disk).mapError PackageError.toError).map fun specs => specs.filter query.accepts

/-- The schemas in the cache. -/
def fetchSchemas (cache : SpecCache) (disk : Disk) : Except Error (List SchemaEntry) :=
  (cache.fetch .everything disk).map fun specs =>
    specs.filterMap fun spec => spec.schemaEntry.toOption

end SpecCache

end StubGen
