import StubGen.Disk.Path
import StubGen.Disk.Tree

/-!
# The disk

A tree of files with a working directory and a home directory, addressed by path texts. Steps
that change it may also be refused from outside, for reasons that the tree does not show; which
coming steps are refused is part of the disk. A step that is refused changes no file.
-/

namespace StubGen

/-- A tree of files and what paths are seen from. -/
structure Disk where
  tree : Disk.Tree
  workingDirectory : Disk.Place
  home : Option String
  /-- For each coming step the reason for which it is refused from outside, if it is; steps
  beyond the list are not. -/
  refusals : List (Option IoCause)

namespace Disk

/-- The place where the way of a path begins. -/
def startOf (disk : Disk) (path : String) : Place :=
  if Path.isAbsolute path then [] else disk.workingDirectory

/-- Why a text leads nowhere whatever the tree holds, if it is so. -/
def checkPath (path : String) : Except IoCause Unit :=
  if path.toList.contains '\x00' then .error .nulInPath
  else if path.isEmpty then .error .notFound
  else if Path.sizeLimit ≤ path.utf8ByteSize then .error .nameTooLong
  else .ok ()

/-- The place that a path leads to and what is there, nothing if it is missing in a directory that
is there. -/
def walk (disk : Disk) (path : String) : Except IoCause (Place × Option Node) := do
  checkPath path
  let (place, node) ← disk.tree.walk (disk.startOf path) (Path.names path)
  match node with
  | some (.file _) => if Path.saysDirectory path then throw .notADirectory
  | _ => pure ()
  return (place, node)

/-- What a path leads to. -/
def find (disk : Disk) (path : String) : Except IoCause (Option Node) :=
  (disk.walk path).map Prod.snd

/-- The place of the entry that a path names in a directory that is there; nothing if the path ends
in dots or is the top, which are there but are no entries. -/
def place? (disk : Disk) (path : String) : Except IoCause (Option Place) := do
  checkPath path
  let names := Path.names path
  let (directory, node) ← disk.tree.walk (disk.startOf path) names.dropLast
  match node, names.getLast? with
  | none, _ => throw .notFound
  | some (.file _), _ => throw .notADirectory
  | some .directory, none => return none
  | some .directory, some name =>
    if name = "." || name = ".." then return none
    else if Tree.nameLimit < name.utf8ByteSize then throw .nameTooLong
    else return some (directory ++ [name])

/-- The places that the way of a path leads over as long as there are directories; the last one is
where it ends. -/
def placesAlong (disk : Disk) (path : String) : List Place :=
  let names := Path.names path
  (List.range (names.length + 1)).map fun count =>
    (names.take count).foldl Tree.step (disk.startOf path)

def isDirectory (disk : Disk) (path : String) : Bool :=
  match disk.find path with
  | .ok (some .directory) => true
  | _ => false

def isFile (disk : Disk) (path : String) : Bool :=
  match disk.find path with
  | .ok (some (.file _)) => true
  | _ => false

def isThere (disk : Disk) (path : String) : Bool :=
  match disk.find path with
  | .ok (some _) => true
  | _ => false

/-- The content of a file. -/
def read (disk : Disk) (path : String) : Except IoCause String := do
  match ← disk.find path with
  | none => throw .notFound
  | some .directory => throw .isADirectory
  | some (.file content) => return content

/-- The disk with another tree. -/
def withTree (disk : Disk) (tree : Tree) : Disk := { disk with tree := tree }

/-- Makes a directory. -/
def createDirectory (disk : Disk) (path : String) : Except IoCause Disk := do
  match ← disk.place? path with
  | none => throw .alreadyExists
  | some place =>
    match disk.tree.get? place with
    | some _ => throw .alreadyExists
    | none => return disk.withTree (disk.tree.put place .directory)

/-- Makes a directory and all around it, from the innermost one that is missing outwards and back.
`above` is the directory and those around it, the innermost first. -/
def createWithParents (disk : Disk) : List String → Except IoCause Unit × Disk
  | [] => (.error .notFound, disk)
  | path :: above =>
    if path.isEmpty then (.ok (), disk)
    else
      match disk.createDirectory path with
      | .ok made => (.ok (), made)
      | .error .notFound =>
        match disk.createWithParents above with
        | (.error cause, outer) => (.error cause, outer)
        | (.ok (), outer) =>
          match outer.createDirectory path with
          | .ok made => (.ok (), made)
          | .error cause =>
            (if outer.isDirectory path then .ok () else .error cause, outer)
      | .error cause => (if disk.isDirectory path then .ok () else .error cause, disk)

/-- Makes a directory and all around it; one that is there is left alone. -/
def createDirectories (disk : Disk) (path : String) : Except IoCause Unit × Disk :=
  disk.createWithParents (Path.ancestors path)

/-- Removes a file. -/
def removeFile (disk : Disk) (path : String) : Except IoCause Disk := do
  match ← disk.place? path with
  | none => throw .isADirectory
  | some place =>
    match disk.tree.get? place with
    | none => throw .notFound
    | some .directory => throw .isADirectory
    | some (.file _) =>
      if Path.saysDirectory path then throw .notADirectory
      else return disk.withTree (disk.tree.erase place)

/-- Removes a directory that has nothing in it. -/
def removeDirectory (disk : Disk) (path : String) : Except IoCause Disk := do
  match ← disk.place? path with
  | none => throw .resourceBusy
  | some place =>
    match disk.tree.get? place with
    | none => throw .notFound
    | some (.file _) => throw .notADirectory
    | some .directory =>
      if disk.tree.hasChildren place then throw .directoryNotEmpty
      else return disk.withTree (disk.tree.erase place)

/-- Removes a directory and all that is in it. -/
def removeAll (disk : Disk) (path : String) : Except IoCause Disk := do
  let (place, _) ← disk.walk path
  return disk.withTree (disk.tree.eraseBelow place)

/-- The name of a temporary file, unless there is one of that name. -/
def temporaryName : String := ".tmpXXXXXX"

/-- Makes an empty temporary file in a directory and gives its place. Its path is that of the
directory as seen from the top. -/
def createTemporary (disk : Disk) (directory : String) : Except IoCause (Place × Disk) := do
  let outer := Path.join ("/" ++ Text.join "/" disk.workingDirectory) directory
  match ← disk.place? (Path.join outer temporaryName) with
  | none => throw .alreadyExists
  | some place =>
    let temporary := disk.tree.freshPlace place
    return (temporary, disk.withTree (disk.tree.put temporary (.file "")))

/-- Gives a temporary file its content. -/
def fill (disk : Disk) (temporary : Place) (content : String) : Disk :=
  disk.withTree (disk.tree.put temporary (.file content))

/-- Removes a temporary file. -/
def discard (disk : Disk) (temporary : Place) : Disk :=
  disk.withTree (disk.tree.erase temporary)

/-- Gives a file the name of another one, in whose place it is then. -/
def rename (disk : Disk) (source : Place) (path : String) : Except IoCause Disk := do
  match ← disk.place? path with
  | none => throw .resourceBusy
  | some place =>
    if Path.saysDirectory path then throw .notADirectory
    match disk.tree.get? place, disk.tree.get? source with
    | some .directory, _ => throw .isADirectory
    | _, none => throw .notFound
    | _, some node => return disk.withTree ((disk.tree.erase source).put place node)

/-- Writes a file, in place of whatever file is there. -/
def writeFile (disk : Disk) (path content : String) : Except IoCause Disk := do
  match ← disk.place? path with
  | none => throw .isADirectory
  | some place =>
    if Path.saysDirectory path then throw .isADirectory
    match disk.tree.get? place with
    | some .directory => throw .isADirectory
    | _ => return disk.withTree (disk.tree.put place (.file content))

/-- The next refusal from outside, and the disk for the steps after it. -/
def nextRefusal (disk : Disk) : Option IoCause × Disk :=
  match disk.refusals with
  | [] => (none, disk)
  | refusal :: rest => (refusal, { disk with refusals := rest })

end Disk

end StubGen
