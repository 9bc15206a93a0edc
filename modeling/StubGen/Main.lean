import StubGen.Command.Run
import StubGen.Disk.Changes
import StubGen.Shell.Programs
import StubGen.Text.Uuid

/-!
# The program

The outermost layer: it reads the files that a command line looks at, runs the command, and writes
back what the command has changed. There is no way to the network from here, so every request finds
the service absent.
-/

namespace StubGen.Program

/-- The place of a file on the disk of the machine. -/
def entryAt (place : Disk.Place) : IO.FS.DirEntry := ⟨"/", Text.join "/" place⟩

/-- Adds what is found at an entry, and all below it, to a tree. A file that holds no text counts
as an empty one. -/
partial def addFound (place : Disk.Place) (tree : Disk.Tree) (entry : IO.FS.DirEntry) :
    IO Disk.Tree := do
  if ← entry.path.isDir then
    (← entry.path.readDir).foldlM (fun tree e => addFound (place ++ [e.fileName]) tree e)
      (tree.put place .directory)
  else if ← entry.path.pathExists then
    let content ← try IO.FS.readFile entry.path catch _ => pure ""
    return tree.put place (.file content)
  else return tree

/-- Adds what is at a place to a tree, but not what is below it. -/
def addPlace (tree : Disk.Tree) (place : Disk.Place) : IO Disk.Tree := do
  if place.isEmpty then return tree
  if ← (entryAt place).path.isDir then return tree.put place .directory
  addFound place tree (entryAt place)

/-- Adds what is on the way of a path to a disk. -/
def addWay (disk : Disk) (path : String) : IO Disk := do
  match Disk.checkPath path with
  | .ok () => return disk.withTree (← (disk.placesAlong path).foldlM addPlace disk.tree)
  | .error _ => return disk

/-- Adds what is at a path, below it and on the way to it to a disk. -/
def addPath (disk : Disk) (path : String) : IO Disk := do
  let disk ← addWay disk path
  match disk.walk path with
  | .ok (place, some _) => return disk.withTree (← addFound place disk.tree (entryAt place))
  | _ => return disk

/-- The disk that a command line looks at. -/
def readDisk (surroundings : Command.Surroundings) (words : List String) : IO Disk := do
  let home ← IO.getEnv "HOME"
  let here := (← IO.currentDir).toString
  let disk ← addWay ⟨.empty, Disk.Path.names here, home, []⟩ here
  match Command.parseLine words with
  | .error _ => return disk
  | .ok line =>
    let disk ← (Command.fixedPaths surroundings line home).foldlM addPath disk
    match Command.settings surroundings line disk with
    | .ok context => addPath disk (context.config.packageRoot disk)
    | .error _ => return disk

/-- Writes to the disk of the machine what has changed from one tree to another. -/
def writeChanges (old new : Disk.Tree) : IO Unit := do
  let changes := Disk.Tree.changes old new
  for (place, node) in changes.removed do
    match node with
    | .directory => IO.FS.removeDir (entryAt place).path
    | .file _ => IO.FS.removeFile (entryAt place).path
  for (place, node) in changes.written do
    match node with
    | .directory => IO.FS.createDir (entryAt place).path
    | .file content => IO.FS.writeFile (entryAt place).path content

/-- The environment variables that the program looks at. -/
def variableNames : List String :=
  [Config.apiKeyVariable, Config.baseUrlVariable, Config.outputDirectoryVariable, "XDG_CONFIG_HOME"]

/-- What the program is run with on this machine. -/
def readSurroundings : IO Command.Surroundings := do
  let values ← variableNames.mapM fun name => do return (name, ← IO.getEnv name)
  let seed ← IO.rand 0 0xffffffffffffffff
  let hasColors := (← (← IO.getStdout).isTty) && (← IO.getEnv "NO_COLOR").isNone
  let bits (salt : UInt64) (spec : Spec) : UInt64 :=
    mixHash (mixHash seed.toUInt64 salt) (hash spec.id)
  return {
    programs := Shell.programs
    clientId := fun spec => Uuid.ofRandom (bits 1 spec) (bits 2 spec)
    style := ⟨hasColors⟩
    fromEnvironment := fun name => (values.lookup name).join }

end StubGen.Program

/-- Runs the program with the words of a command line. -/
def main (args : List String) : IO UInt32 := do
  let surroundings ← StubGen.Program.readSurroundings
  let disk ← StubGen.Program.readDisk surroundings args
  let (exit, session) := StubGen.Command.run surroundings args ⟨disk, .absent, ""⟩
  StubGen.Program.writeChanges disk.tree session.disk.tree
  IO.print session.output
  IO.eprint exit.complaint
  return exit.code.value.toNat.toUInt32
