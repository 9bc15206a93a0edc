import StubGen.Schema.CommandEngine
import StubGen.Shell.Bytes
import StubGen.Shell.Run

/-!
# The programs of this library

A shell and a few programs that need nothing but files. They are what a schema engine can be made of
without leaving this library. They work on a disk that is made for them from the files they are
given.
-/

namespace StubGen.Shell

/-- The directories that are there before any file is. -/
def systemPlaces : List Disk.Place :=
  [["bin"], ["boot"], ["dev"], ["etc"], ["home"], ["lib"], ["media"], ["mnt"], ["opt"], ["proc"],
   ["root"], ["run"], ["sbin"], ["srv"], ["sys"], ["tmp"], ["usr"], ["usr", "bin"], ["usr", "lib"],
   ["usr", "local"], ["var"], ["var", "tmp"], ["work"]]

/-- A tree with a file and the directories around it. -/
def placeFile (tree : Disk.Tree) (path content : String) : Disk.Tree :=
  let place := Disk.Path.names path
  let outer := (List.range place.length).map place.take
  let tree := outer.foldl (fun tree p => if (tree.get? p).isSome then tree else tree.put p .directory)
    tree
  tree.put place (.file content)

/-- The disk that holds some files. -/
def diskOf (files : Files) : Disk :=
  let system := systemPlaces.foldl (fun tree place => tree.put place .directory) Disk.Tree.empty
  let tree := files.foldl (fun tree (path, content) => placeFile tree (toBytes path) (toBytes content))
    (system.put ["dev", "null"] (.file ""))
  ⟨tree, ["work"], none, []⟩

/-- The files of a disk that hold text. -/
def filesOf (disk : Disk) : Files :=
  disk.tree.entries.filterMap fun (place, node) =>
    match node with
    | .directory => none
    | .file content => do
      return (← ofBytes? ("/" ++ Text.join "/" place), ← ofBytes? content)

/-- A shell that has nothing to read and has done nothing. -/
def newSession (disk : Disk) : Session where
  disk := disk
  buffers := ["", ""]
  channels := [(1, .buffer 0), (2, .buffer 1)]
  opened := []
  input := ""
  readsFile := false
  bindings := [("IFS", " \t\n"), ("OPTIND", "1"), ("PS4", "+ ")]
  readOnly := []
  exported := []
  functions := []
  hidden := []
  name := "sh"
  speaker := none
  args := []
  status := 0
  wordStatus := 0
  late := ""
  isParallel := false
  slow := ""
  options := []
  isTested := false
  loopDepth := 0
  functionDepth := 0
  line := 0

/-- How deep commands can be inside one another, and how often loops can run. -/
def depthLimit : Nat := 20000

/-- What a program does, as what a shell does that runs nothing else; nothing if there is no such
program. -/
def runProgram? (name : String) (args : List String) (disk : Disk) : Option (Running Unit) :=
  let program := programName name
  if program = "sh" || program = "dash" then some (Running.shell depthLimit args)
  else if (tool? program ⟨args, "", false, disk, none⟩).isSome then some (Running.external program args)
  else none

/-- The programs of this library. No argument can hold the character that ends texts for them. -/
def programs : Programs := fun name args files => do
  if (name :: args).any fun text => text.toList.contains '\x00' then none
  let disk := diskOf files
  let action ← runProgram? (toBytes name) (args.map toBytes) disk
  let (_, s) := action.run.run (newSession disk)
  return ⟨s.status == 0, ofBytes (s.buffers.getD 1 "" ++ s.late), filesOf s.disk⟩

end StubGen.Shell
