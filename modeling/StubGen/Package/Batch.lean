import StubGen.Package.Writer

/-!
# Batches

The specs of a section are generated one after another, each by itself. One that cannot be
rendered or written leaves nothing behind and does not stop the others, and the report tells what
became of every one of them.
-/

namespace StubGen

namespace Section

/-- What the specs of a section are called. -/
def noun : Section → String
  | .functions => "functions"
  | .variables => "variables"
  | .schemas => "schemas"
  | .tables => "tables"

/-- Whether specs of a category go into a section. -/
def holds (root : Section) (category : Category) : Bool :=
  match root with
  | .functions => category.isFunction
  | .variables => category == .serverVariable
  | .schemas => category == .schema
  | .tables => category == .table

end Section

/-- What became of a spec. -/
inductive Attempt where
  | generated
  /-- There was nothing to write. -/
  | skipped
  | failed (error : Error)
deriving DecidableEq, Repr

/-- A spec that could not be generated. -/
structure BatchFailure where
  name : String
  id : String
  reason : String
deriving DecidableEq, Repr

/-- A failure as it is shown. -/
def BatchFailure.message (failure : BatchFailure) : String :=
  failure.name ++ " (" ++ failure.id ++ "): " ++ failure.reason

/-- The specs of a section, each with what became of it. -/
structure BatchReport where
  root : Section
  attempts : List (Spec × Attempt)

namespace BatchReport

/-- The names of the specs that were written. -/
def generated (report : BatchReport) : List String :=
  report.attempts.filterMap fun (spec, attempt) =>
    match attempt with
    | .generated => some spec.qualifiedName
    | _ => none

/-- The names of the specs with nothing to write. -/
def skipped (report : BatchReport) : List String :=
  report.attempts.filterMap fun (spec, attempt) =>
    match attempt with
    | .skipped => some spec.qualifiedName
    | _ => none

/-- The specs that failed. -/
def failures (report : BatchReport) : List BatchFailure :=
  report.attempts.filterMap fun (spec, attempt) =>
    match attempt with
    | .failed error => some ⟨spec.qualifiedName, spec.id, error.message⟩
    | _ => none

/-- Whether nothing failed. -/
def isClean (report : BatchReport) : Bool := report.failures.isEmpty

/-- How many specs the batch looked at. -/
def attempted (report : BatchReport) : Nat :=
  report.generated.length + report.skipped.length + report.failures.length

def failedNames (report : BatchReport) : List String := report.failures.map BatchFailure.name

end BatchReport

/-- What a package is generated with: how stubs are made, and where they go. -/
structure Generator where
  renderer : Renderer
  writer : PackageWriter

namespace Generator

/-- Renders and writes one spec. -/
def attempt (g : Generator) (spec : Spec) (disk : Disk) : Attempt × Disk :=
  match g.renderer.render spec with
  | .error e => (.failed e, disk)
  | .ok stub =>
    if stub.isEmpty then (.skipped, disk)
    else
      match g.writer.write stub disk with
      | (.ok (), after) => (.generated, after)
      | (.error e, after) => (.failed e.toError, after)

/-- Renders and writes specs one after another. -/
def attemptAll (g : Generator) : List Spec → Disk → List (Spec × Attempt) × Disk
  | [], disk => ([], disk)
  | spec :: specs, disk =>
    let (first, disk) := g.attempt spec disk
    let (others, disk) := g.attemptAll specs disk
    ((spec, first) :: others, disk)

/-- Generates the specs of a section. -/
def batch (g : Generator) (root : Section) (specs : List Spec) (disk : Disk) :
    BatchReport × Disk :=
  let (attempts, disk) := g.attemptAll (specs.filter fun spec => root.holds spec.category) disk
  (⟨root, attempts⟩, disk)

/-- Generates the specs of several sections. -/
def batches (g : Generator) (specs : List Spec) :
    List Section → Disk → List BatchReport × Disk
  | [], disk => ([], disk)
  | root :: roots, disk =>
    let (first, disk) := g.batch root specs disk
    let (others, disk) := g.batches specs roots disk
    (first :: others, disk)

end Generator

end StubGen
