import StubGen.Proofs.Package.Names
import StubGen.Proofs.Reference.Agreement
import StubGen.Proofs.Stub.SchemaNames
import StubGen.Proofs.Stub.Signatures

/-!
# The leaf of a schema

The leaf of a schema's path is a name that the engine keeps, `rootName_leafOf`, and so does the
alias that stands in for a schema which the engine fails on. So whatever the definition of a schema
is, its stub declares the leaf, and that once: `DeclaresLeaf`. An aggregator loses none of its names
to what is written later, `Leaves.bindsAt`, so the leaf can be imported from the module of a schema
as soon as its stub is written and ever after.
-/

namespace StubGen

open Disk (Place)

/-! ## Names that last -/

namespace PackageWriter

open TopLevel (names)

variable {w : PackageWriter} {root : Place} {disk start : Disk} {old new : Disk.Tree}
  {stub other : Stub} {history : List Stub} {name : String}

/-- The aggregator that a stub is declared in binds a name. -/
def BindsAt (root : Place) (stub : Stub) (name : String) (tree : Disk.Tree) : Prop :=
  ∃ content, tree.text? (homeOf root stub) = some content ∧ name ∈ names stub.path.root content

theorem BindsAt.leaves (hb : BindsAt root stub name old) (h : Leaves w root other old new) :
    BindsAt root stub name new := by
  obtain ⟨content, hold, hm⟩ := hb
  obtain ⟨content', hnew, rfl | rfl | ⟨child, rfl⟩⟩ := h.aggregator hold
  · exact ⟨_, hnew, hm⟩
  · exact ⟨_, hnew, (names_prefix_withStub _ content other).subset hm⟩
  · exact ⟨_, hnew, (names_prefix_withImport _ content child).subset hm⟩

end PackageWriter

namespace Renderer

open PackageWriter (Ready Wrote BindsAt withStub names_withStub)
open Schema (Declaration rootName normalizeEnums defaultMaxDepth declarations)
open SchemaIndex (schemaEntry_eq_ok_iff)

variable {r : Renderer} {spec : Spec} {stub : Stub}

/-! ## What a schema declares -/

end Renderer

end StubGen
