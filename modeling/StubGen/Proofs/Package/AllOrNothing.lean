import StubGen.Proofs.Package.Composition
import StubGen.Proofs.Package.Transaction

/-!
# A package is written as a whole or not at all

Writing a stub, starting a package and adding an import are put together of safe steps,
each of them run as one transaction: if any step fails, whether for what is on the disk
or because it is refused from outside, every file is again what it was. The one main
result is `failure_leaves_tree`.
-/

namespace StubGen.PackageWriter

open Transaction

variable {start disk : Disk} {w : PackageWriter} {α : Type}

/-! ## The steps of a writer are safe -/

theorem compositional_safe : Compositional fun {_} steps => Safe start steps where
  ofPure := safe_pure
  ofThrow := safe_throw
  bind := Safe.bind
  getBind := safe_get_bind
  look := safe_attempt_look
  createDirectory := safe_createDirectory
  writeFile := safe_writeFile

theorem safe_appendImport (aggregator child : String) :
    Safe start (appendImport aggregator child) :=
  compositional_safe.appendImport aggregator child

theorem safe_writeIn (stub : Stub) : Safe start (w.writeIn stub) :=
  compositional_safe.writeIn stub

theorem safe_initIn (files : List PackageFile) : Safe start (w.initIn files) :=
  compositional_safe.initIn files

/-! ## Whole transactions -/

/-- A disk that differs from another one in nothing but the refusals used up. -/
def Untouched (disk after : Disk) : Prop := after = { disk with refusals := after.refusals }

/-- What steps come to as one change. -/
theorem atomically_cases (steps : Writing α) (disk : Disk) :
    (∃ value t, steps (.start disk) = (.ok value, t) ∧
      atomically steps disk = (.ok value, t.disk)) ∨
    (∃ e t, steps (.start disk) = (.error e, t) ∧
      atomically steps disk = (.error e, t.rollback)) := by
  unfold atomically
  rcases hrun : steps (.start disk) with ⟨e | value, t⟩
  · right
    refine ⟨e, t, rfl, ?_⟩
    rw [show (steps.run).run (.start disk) = _ from hrun]
  · left
    refine ⟨value, t, rfl, ?_⟩
    rw [show (steps.run).run (.start disk) = _ from hrun]

/-- Safe steps that fail as one change leave the disk as it was. -/
theorem untouched_of_atomically {steps : Writing α} {e : PackageError} {after : Disk}
    (hwf : disk.tree.WellFormed) (hs : Safe disk steps)
    (h : atomically steps disk = (.error e, after)) : Untouched disk after := by
  have hsafe := hs.run (.start disk) (revertible_start hwf)
  rcases atomically_cases steps disk with ⟨value, t, hrun, heq⟩ | ⟨e', t, hrun, heq⟩
  · rw [heq] at h
    exact absurd (Prod.mk.inj h).1 (by simp)
  · rw [hrun] at hsafe
    obtain ⟨refusals, hback⟩ := hsafe
    rw [heq] at h
    rw [← (Prod.mk.inj h).2, hback]
    rfl

/-- Safe steps leave a tree in which everything stands in a directory, whether they fail or not. -/
theorem wellFormed_of_atomically {steps : Writing α} (hwf : disk.tree.WellFormed)
    (hs : Safe disk steps) : (atomically steps disk).2.tree.WellFormed := by
  have hsafe := hs.run (.start disk) (revertible_start hwf)
  rcases atomically_cases steps disk with ⟨value, t, hrun, heq⟩ | ⟨e, t, hrun, heq⟩
  · rw [hrun] at hsafe
    rw [heq]
    exact hsafe.wellFormed
  · rw [hrun] at hsafe
    obtain ⟨refusals, hback⟩ := hsafe
    rw [heq]
    show t.rollback.tree.WellFormed
    rw [hback]
    exact hwf

/-- A stub that cannot be written leaves the disk as it was. -/
theorem untouched_of_write {stub : Stub} {e : PackageError} {after : Disk}
    (hwf : disk.tree.WellFormed) (h : w.write stub disk = (.error e, after)) :
    Untouched disk after := by
  unfold write at h
  split at h
  · -- an empty stub is refused before anything is done
    rw [← (Prod.mk.inj h).2]
    rfl
  · exact untouched_of_atomically hwf (safe_writeIn stub) h

/-- Steps that come to something as one change have been taken. -/
theorem run_of_atomically {steps : Writing α} {value : α} {after : Disk}
    (h : atomically steps disk = (.ok value, after)) :
    ∃ t, steps (.start disk) = (.ok value, t) ∧ t.disk = after := by
  rcases atomically_cases steps disk with ⟨value', t, hrun, heq⟩ | ⟨e, t, -, heq⟩
  · rw [heq] at h
    obtain ⟨hvalue, hafter⟩ := Prod.mk.inj h
    exact ⟨t, Except.ok.inj hvalue ▸ hrun, hafter⟩
  · rw [heq] at h
    exact absurd (Prod.mk.inj h).1 (by simp)

/-- **All or nothing.** When a stub cannot be written, a package cannot be started or an import
cannot be added, the same directories and files are there as before, and no others. -/
theorem failure_leaves_tree (w : PackageWriter) (disk : Disk) (hwf : disk.tree.WellFormed) :
    (∀ stub e after, w.write stub disk = (.error e, after) → Untouched disk after) ∧
    (∀ files e after, w.init files disk = (.error e, after) → Untouched disk after) ∧
    (∀ aggregator child e after,
      addImport aggregator child disk = (.error e, after) → Untouched disk after) := by
  refine ⟨fun stub e after h => ?_, fun files e after h => ?_, fun aggregator child e after h => ?_⟩
  · unfold write at h
    split at h
    · -- an empty stub is refused before anything is done
      rw [← (Prod.mk.inj h).2]
      rfl
    · exact untouched_of_atomically hwf (safe_writeIn stub) h
  · exact untouched_of_atomically hwf (safe_initIn files) h
  · exact untouched_of_atomically hwf (safe_appendImport aggregator child) h

/-- A package with a directory in the place of a module of types. -/
def blockedPackage : Disk where
  tree := ((Disk.Tree.empty.put ["poly"] .directory).put ["poly", "shop"] .directory).put
    ["poly", "shop", "_getPet.py"] .directory
  workingDirectory := []
  home := none
  refusals := []

/-- Two aggregators are made before the module of types is refused, and neither stays. -/
theorem failure_leaves_tree_blocked :
    let w : PackageWriter := ⟨"", fun _ => "# poly\n"⟩
    let stub : Stub := ⟨⟨.functions, ["shop"], "getPet"⟩, "def getPet(): ...", "class Pet: ..."⟩
    ∃ e after, w.write stub blockedPackage = (.error e, after) ∧
      Untouched blockedPackage after := by
  intro w stub
  have hwf : blockedPackage.tree.WellFormed :=
    ((Disk.Tree.wellFormed_empty.put rfl (by decide)).put rfl (by decide)).put rfl (by decide)
  have hfail : (w.write stub blockedPackage).1.toBool = false := by decide +kernel
  match h : w.write stub blockedPackage with
  | (.error e, after) =>
      exact ⟨e, after, rfl, (failure_leaves_tree w blockedPackage hwf).1 stub e after h⟩
  | (.ok _, after) =>
      rw [h] at hfail
      exact Bool.noConfusion hfail

end StubGen.PackageWriter
