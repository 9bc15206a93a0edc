import StubGen.Proofs.Disk.Paths

/-!
# Disks that look alike

Two trees are alike when they hold the same at all places but some hidden ones, where neither has
a directory. So they have the same directories, and a path whose way avoids what is hidden leads
to the same in both, or nowhere for the same reason: `Alike.find_eq`. What is stored at one place
in both leaves them alike: `Tree.Alike.put`.
-/

namespace StubGen.Disk

open StubGen.Disk.Tree (KeepsDirectories)

variable {hidden : Place → Prop} {disk disk' : Disk} {path : String} {place : Place}

namespace Tree

variable {tree tree' : Tree} {start : Place} {names : List String}

/-- Two trees hold the same but at hidden places, where neither has a directory. -/
structure Alike (hidden : Place → Prop) (tree tree' : Tree) : Prop where
  same : ∀ place, ¬ hidden place → tree.get? place = tree'.get? place
  left : ∀ place, hidden place → tree.get? place ≠ some .directory
  right : ∀ place, hidden place → tree'.get? place ≠ some .directory

namespace Alike

theorem symm (h : Alike hidden tree tree') : Alike hidden tree' tree :=
  ⟨fun place hn => (h.same place hn).symm, h.right, h.left⟩

theorem keepsDirectories (h : Alike hidden tree tree') : KeepsDirectories tree tree' := by
  intro place hd
  rw [← h.same place fun hh => h.left place hh hd, hd]

theorem directory_iff (h : Alike hidden tree tree') (place : Place) :
    tree.get? place = some .directory ↔ tree'.get? place = some .directory :=
  ⟨h.keepsDirectories place, h.symm.keepsDirectories place⟩

/-- The same node is stored in both, also at a hidden place unless it is a directory. -/
theorem put {node : Node} (h : Alike hidden tree tree') (hp : place ≠ [])
    (hn : hidden place → node ≠ .directory) :
    Alike hidden (tree.put place node) (tree'.put place node) := by
  have hdirectory : ∀ {old : Tree} q, hidden q → old.get? q ≠ some .directory →
      (old.put place node).get? q ≠ some .directory := by
    intro old q hq hold
    by_cases hqp : q = place
    · rw [hqp, get?_put_self hp]
      exact fun hnode => hn (hqp ▸ hq) (Option.some.inj hnode)
    · rwa [get?_put_of_ne hqp]
  refine ⟨fun q hq => ?_, fun q hq => hdirectory q hq (h.left q hq),
    fun q hq => hdirectory q hq (h.right q hq)⟩
  by_cases hqp : q = place
  · rw [hqp, get?_put_self hp, get?_put_self hp]
  · rw [get?_put_of_ne hqp, get?_put_of_ne hqp, h.same q hq]

/-- What is stored at a hidden place in both need not be hidden any more. -/
theorem reveal {node : Node} (h : Alike hidden tree tree') (hp : place ≠ [])
    (hh : ∀ q, hidden q → q = place) :
    Alike (fun _ => False) (tree.put place node) (tree'.put place node) := by
  refine ⟨fun q _ => ?_, fun _ => False.elim, fun _ => False.elim⟩
  by_cases hqp : q = place
  · rw [hqp, get?_put_self hp, get?_put_self hp]
  · rw [get?_put_of_ne hqp, get?_put_of_ne hqp, h.same q fun hq => hqp (hh q hq)]

/-- A walk that goes over nothing hidden is the same in both trees, also where it fails. -/
theorem walk_eq (h : Alike hidden tree tree')
    (hc : ∀ front, front <+: names → ¬ hidden (front.foldl step start)) :
    tree.walk start names = tree'.walk start names := by
  induction names generalizing start with
  | nil => rw [walk, walk, h.same start (hc [] List.nil_prefix)]
  | cons name rest ih =>
      rw [walk, walk, h.same start (hc [] List.nil_prefix),
        ih fun front hf => hc (name :: front) ((List.prefix_cons_inj name).mpr hf)]

end Alike

end Tree

/-- Two disks whose trees are alike, and on which the same is refused from outside. -/
structure Alike (hidden : Place → Prop) (disk disk' : Disk) : Prop where
  tree : disk.tree.Alike hidden disk'.tree
  workingDirectory : disk.workingDirectory = disk'.workingDirectory
  refusals : disk.refusals = disk'.refusals

/-- The way of a path avoids what is hidden. -/
def Avoids (hidden : Place → Prop) (disk : Disk) (path : String) : Prop :=
  ∀ front, front <+: Path.names path → ¬ hidden (front.foldl Tree.step (disk.startOf path))

theorem Avoids.placeOf (h : Avoids hidden disk path) : ¬ hidden (disk.placeOf path) :=
  h _ List.prefix_rfl

/-- Directories are not hidden, so the way to one avoids what is. -/
theorem Reaches.avoids (h : disk.Reaches path place)
    (hh : ∀ q, hidden q → disk.tree.get? q ≠ some .directory) : Avoids hidden disk path := by
  rintro front ⟨others, hothers⟩
  unfold Reaches at h
  rw [← hothers] at h
  obtain ⟨between, hw⟩ := Tree.walk_append h
  obtain ⟨hplace, hnode⟩ := Tree.walk_eq_ok hw
  exact fun hf => hh _ hf (hplace ▸ hnode.symm)

namespace Alike

theorem symm (h : Alike hidden disk disk') : Alike hidden disk' disk :=
  ⟨h.tree.symm, h.workingDirectory.symm, h.refusals.symm⟩

theorem startOf_eq (h : Alike hidden disk disk') (path : String) :
    disk.startOf path = disk'.startOf path := by
  unfold startOf
  rw [h.workingDirectory]

theorem reaches (h : Alike hidden disk disk') (hr : disk.Reaches path place) :
    disk'.Reaches path place := by
  unfold Reaches at *
  rw [← h.startOf_eq]
  exact Tree.walk_mono h.tree.keepsDirectories hr

/-- A path that names an entry names it on both disks, whatever is hidden. -/
theorem place?_of_place? (h : Alike hidden disk disk') (he : disk.place? path = .ok (some place)) :
    disk'.place? path = .ok (some place) := by
  have hturned := @place?_mono disk _ _ _ _ h.tree.keepsDirectories he
  unfold place? at hturned ⊢
  rw [← h.startOf_eq]
  exact hturned

section

variable (h : Alike hidden disk disk') (hc : Avoids hidden disk path)

include h hc

theorem find_eq : disk.find path = disk'.find path := by
  unfold find walk
  rw [← h.startOf_eq, h.tree.walk_eq hc]

theorem isThere_eq : disk.isThere path = disk'.isThere path := by
  unfold isThere
  rw [h.find_eq hc]

theorem isDirectory_eq : disk.isDirectory path = disk'.isDirectory path := by
  unfold isDirectory
  rw [h.find_eq hc]

theorem read_eq : disk.read path = disk'.read path := by
  unfold read
  rw [h.find_eq hc]

theorem place?_eq : disk.place? path = disk'.place? path := by
  unfold place?
  dsimp only
  rw [← h.startOf_eq,
    h.tree.walk_eq fun front hf => hc front (hf.trans (List.dropLast_prefix _))]

/-- A directory is made on both disks at the same place, or on neither for the same reason. -/
theorem createDirectory_cases :
    (∃ cause, disk.createDirectory path = .error cause ∧
      disk'.createDirectory path = .error cause) ∨
    (∃ place, place ≠ [] ∧ ¬ hidden place ∧ disk.tree.get? place = none ∧
      disk.createDirectory path = .ok (disk.withTree (disk.tree.put place .directory)) ∧
      disk'.createDirectory path = .ok (disk'.withTree (disk'.tree.put place .directory))) := by
  unfold createDirectory
  rw [← h.place?_eq hc]
  cases he : disk.place? path with
  | error cause => exact .inl ⟨cause, rfl, rfl⟩
  | ok found =>
      cases found with
      | none => exact .inl ⟨.alreadyExists, rfl, rfl⟩
      | some place =>
          have hplace : ¬ hidden place := placeOf_of_place? he ▸ hc.placeOf
          simp only [bind, Except.bind, ← h.tree.same place hplace]
          cases hg : disk.tree.get? place with
          | some node => exact .inl ⟨.alreadyExists, rfl, rfl⟩
          | none => exact .inr ⟨place, ne_nil_of_place? he, hplace, hg, rfl, rfl⟩

end

end Alike

end StubGen.Disk
