import StubGen.Disk.Tree

/-!
# What has changed between two trees

A tree differs from an older one by entries that are new, or not what they were, and by entries
that have gone. Carried out in their order, first what has gone and then what is new, the changes
make the one tree of the other.
-/

namespace StubGen.Disk

/-- The steps from one tree to another. -/
structure Changes where
  /-- What has gone, the innermost places first. -/
  removed : List (Place × Node)
  /-- What is new or not what it was, the outermost places first. -/
  written : List (Place × Node)
deriving Repr

namespace Node

/-- Whether two nodes are both directories or both files. -/
def isAkin : Node → Node → Bool
  | .directory, .directory => true
  | .file _, .file _ => true
  | _, _ => false

end Node

namespace Tree

/-- What is below a place, seen from there. -/
def below (tree : Tree) (place : Place) : Tree :=
  ⟨tree.entries.filterMap fun e =>
    if place.isPrefixOf e.1 && e.1 ≠ place then some (e.1.drop place.length, e.2) else none⟩

/-- Whether a tree has a node of the kind of another one at a place. -/
def hasAkin (tree : Tree) (place : Place) (node : Node) : Bool :=
  match tree.get? place with
  | some found => found.isAkin node
  | none => false

/-- The changes from one tree to another. -/
def changes (old new : Tree) : Changes :=
  { removed := (old.entries.filter fun e => !new.hasAkin e.1 e.2).mergeSort
      fun a b => b.1.length ≤ a.1.length
    written := (new.entries.filter fun e => old.get? e.1 ≠ some e.2).mergeSort
      fun a b => a.1.length ≤ b.1.length }

end Tree

end StubGen.Disk
