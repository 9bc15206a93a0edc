import StubGen.Package.AtomicWrite

/-!
# Transactions

Changes to the disk are logged as they are made, so that a rollback can take them back, the
last one first. A directory is logged when it has been made, a file before it is written.
-/

namespace StubGen

/-- A change that has been made to the disk, with what is needed to take it back. -/
inductive Change where
  | createdDirectory (path : String)
  | createdFile (path : String)
  | replacedFile (path former : String)
deriving DecidableEq, Repr

namespace Change

def path : Change → String
  | .createdDirectory path => path
  | .createdFile path => path
  | .replacedFile path _ => path

end Change

/-- A disk and the changes made to it, the last one first. -/
structure Transaction where
  disk : Disk
  log : List Change

/-- A step of a transaction. What it has changed stays logged when it fails. -/
abbrev Writing := ExceptT PackageError (StateM Transaction)

namespace Transaction

def start (disk : Disk) : Transaction := ⟨disk, []⟩

/-- A step on the disk of a transaction, which is not logged. -/
def onDisk {α : Type} (steps : OnDisk α) : Writing α := fun t =>
  let (result, disk) := steps t.disk
  (result, { t with disk := disk })

/-- Logs a change. -/
def record (change : Change) : Writing Unit := modify fun t => { t with log := change :: t.log }

/-- Makes a directory and logs it. One that is there already is left alone. -/
def createDirectory (path : String) : Writing Unit := do
  match ← onDisk (.attempt fun disk => return ((), ← disk.createDirectory path)) with
  | .ok () => record (.createdDirectory path)
  | .error .alreadyExists => return ()
  | .error cause => throw (.ofIo path cause)

/-- The directories that are missing on the way to a path, the innermost first. -/
def missing (disk : Disk) (path : String) : List String :=
  (Disk.Path.ancestors path).takeWhile fun p => !p.isEmpty && !disk.isDirectory p

/-- Makes a directory and all that are missing on the way to it. -/
def createDirectories (path : String) : Writing Unit := do
  (missing (← get).disk path).reverse.forM createDirectory

/-- Logs what is at a path before it is written for the first time. -/
def remember (path : String) : Writing Unit := do
  let t ← get
  if t.log.any fun change => Disk.Path.same change.path path then return ()
  if t.disk.isThere path then
    let former ← onDisk (.step path fun disk => return (← disk.read path, disk))
    record (.replacedFile path former)
  else record (.createdFile path)

/-- Writes a file, and logs it the first time. -/
def writeFile (path content : String) : Writing Unit := do
  remember path
  onDisk (.writeFile path content)

/-- Takes back a change; what cannot be taken back is left. -/
def undo (disk : Disk) (change : Change) : Disk :=
  let undone : Except PackageError Disk :=
    match change with
    | .createdDirectory path => (disk.removeDirectory path).mapError (PackageError.ofIo path)
    | .createdFile path => (disk.removeFile path).mapError (PackageError.ofIo path)
    | .replacedFile path former => disk.writeAtomic path former
  match undone with
  | .ok disk => disk
  | .error _ => disk

/-- The disk with all logged changes taken back, the last one first. -/
def rollback (t : Transaction) : Disk := t.log.foldl undo t.disk

/-- Runs steps as one change: if they fail, all they changed is taken back. -/
def atomically {α : Type} (steps : Writing α) (disk : Disk) : Except PackageError α × Disk :=
  match (steps.run).run (start disk) with
  | (.ok value, t) => (.ok value, t.disk)
  | (.error e, t) => (.error e, t.rollback)

end Transaction

end StubGen
