import StubGen.Error
import StubGen.Text.Split

/-!
# Trees of files

A tree maps places to directories and text files; a place is the list of names that lead to it.
What a tree holds is what `get?` says of it.
-/

namespace StubGen.Disk

/-- The names that lead from the top to a file or directory. -/
abbrev Place := List String

inductive Node where
  | directory
  | file (content : String)
deriving DecidableEq, Repr

/-- Directories and files by their places. The top is a directory and has no entry. -/
structure Tree where
  entries : List (Place × Node)
deriving Repr

namespace Tree

def empty : Tree := ⟨[]⟩

/-- What is at a place. -/
def get? (tree : Tree) (place : Place) : Option Node :=
  if place.isEmpty then some .directory else tree.entries.lookup place

/-- The entries with one stored at a place, in the place of an older one. -/
def putEntry (place : Place) (node : Node) : List (Place × Node) → List (Place × Node)
  | [] => [(place, node)]
  | (p, n) :: rest => if p = place then (p, node) :: rest else (p, n) :: putEntry place node rest

/-- Stores a node at a place. -/
def put (tree : Tree) (place : Place) (node : Node) : Tree :=
  ⟨putEntry place node tree.entries⟩

/-- Takes away what is at a place. -/
def erase (tree : Tree) (place : Place) : Tree :=
  ⟨tree.entries.filter fun e => e.1 ≠ place⟩

/-- Takes away what is at a place and below it. -/
def eraseBelow (tree : Tree) (place : Place) : Tree :=
  ⟨tree.entries.filter fun e => !place.isPrefixOf e.1⟩

/-- Whether anything is below a place. -/
def hasChildren (tree : Tree) (place : Place) : Bool :=
  tree.entries.any fun e => place.isPrefixOf e.1 && e.1 ≠ place

/-- How long the longest name in a tree is. -/
def longestName (tree : Tree) : Nat :=
  (tree.entries.map fun e => (e.1.getLast?.getD "").length).foldr max 0

/-- The given place if nothing is there, else one beside it whose name is longer than any. -/
def freshPlace (tree : Tree) (place : Place) : Place :=
  match tree.get? place with
  | none => place
  | some _ =>
    let name := place.getLast?.getD ""
    place.dropLast ++ [name ++ String.ofList (List.replicate (tree.longestName + 1) 'X')]

/-- How many bytes a name may have. -/
def nameLimit : Nat := 255

/-- Where a name leads from a place: a dot stays, and two dots go back. -/
def step (place : Place) (name : String) : Place :=
  if name = "." then place else if name = ".." then place.dropLast else place ++ [name]

/-- Walks from a place along names, each of which has to stand in a directory that is there, dots
like any other. Gives the place at the end and what is there, nothing if it is missing. -/
def walk (tree : Tree) (place : Place) : List String → Except IoCause (Place × Option Node)
  | [] => .ok (place, tree.get? place)
  | name :: rest =>
    match tree.get? place with
    | none => .error .notFound
    | some (.file _) => .error .notADirectory
    | some .directory =>
      if nameLimit < name.utf8ByteSize then .error .nameTooLong
      else walk tree (step place name) rest

end Tree

end StubGen.Disk
