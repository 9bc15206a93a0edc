import StubGen.Disk.Basic

/-!
# Writing a file as one change

A file is written by way of a temporary file beside it, which is filled, brought to the disk and
then given the name of the file. Each of these steps may fail or be refused from outside. Then the
temporary file is removed again, so that a reader sees the file that was or the one that is wanted,
and never another one.
-/

namespace StubGen

/-- Why nothing could be written to a package. -/
inductive PackageError where
  | emptyContent (path : String)
  | invalidPath (path reason : String)
  | io (failure : IoFailure)
  | cacheFormat (path detail : String)
deriving DecidableEq, Repr

namespace PackageError

def message : PackageError → String
  | .emptyContent path => "Nothing to write for " ++ path ++ ": rendered source is empty"
  | .invalidPath path reason => "Invalid package path " ++ path ++ ": " ++ reason
  | .io failure => "I/O error at " ++ failure.path ++ ": " ++ failure.detail
  | .cacheFormat path detail => "Spec cache " ++ path ++ " is unreadable: " ++ detail

/-- A package error among the errors of the library. -/
def toError : PackageError → Error
  | .io failure => .io failure
  | .invalidPath path reason => .validation path reason
  | .emptyContent path => .render path "rendered source is empty"
  | .cacheFormat path _ => .serialization ("spec cache " ++ path ++ " is unreadable")

def ofIo (path : String) (cause : IoCause) : PackageError := .io (.of path cause)

end PackageError

/-- A disk on which steps may fail without being taken back. -/
abbrev OnDisk := ExceptT PackageError (StateM Disk)

namespace OnDisk

/-- What a step on the disk gives, or why it fails or is refused from outside. -/
def attempt {α : Type} (step : Disk → Except IoCause (α × Disk)) : OnDisk (Except IoCause α) := do
  let (refusal, disk) := (← get).nextRefusal
  set disk
  match refusal with
  | some cause => return .error cause
  | none =>
    match step disk with
    | .error cause => return .error cause
    | .ok (value, after) =>
      set after
      return .ok value

/-- A step on the disk whose failure is reported with a path. -/
def step {α : Type} (path : String) (step : Disk → Except IoCause (α × Disk)) : OnDisk α := do
  match ← attempt step with
  | .ok value => return value
  | .error cause => throw (.ofIo path cause)

/-- Steps that no refusal from outside meets. -/
def unhindered {α : Type} (steps : OnDisk α) : OnDisk α := fun disk =>
  let (result, after) := steps { disk with refusals := [] }
  (result, { after with refusals := disk.refusals })

/-- Fills a temporary file, brings it to the disk and gives it the name of a file. -/
def promote (parent path content : String) (temporary : Disk.Place) : OnDisk Unit := do
  let name := Disk.Path.join parent (temporary.getLast?.getD "")
  step name fun disk => return ((), disk.fill temporary content)
  step name fun disk => return ((), disk)
  step path fun disk => return ((), ← disk.rename temporary path)

/-- Puts a file in place of whatever file is there, by way of a temporary file beside it, which is
removed if that fails. -/
def writeFile (path content : String) : OnDisk Unit := do
  match Disk.Path.parent? path with
  | none => throw (.invalidPath path "no parent directory")
  | some parent =>
    let temporary ← step parent fun disk => disk.createTemporary parent
    tryCatch (promote parent path content temporary) fun e => do
      modify fun disk => disk.discard temporary
      throw e

end OnDisk

/-- The disk with a file written that no refusal from outside meets. -/
def Disk.writeAtomic (disk : Disk) (path content : String) : Except PackageError Disk :=
  match OnDisk.unhindered (OnDisk.writeFile path content) disk with
  | (.ok (), after) => .ok after
  | (.error e, _) => .error e

end StubGen
