import StubGen.Package.Transaction
import StubGen.Proofs.Package.AtomicWrite

/-!
# What a log can take back

A log reverts a disk to a tree when each of its changes, taken back in turn, finds the
disk as the change has left it: `Reverts`. Rolling back then ends with that very tree:
`rollback_eq`. The work is in keeping this up while the disk changes. A new change goes
on top of the log; but a file that is already logged is written without a new change, and
then the disk differs, below all later changes, from the one that those were made on.
That does no harm, since a later change is never above the file: `Reverts.put`.
-/

namespace StubGen

open Disk (Place Node)
open Disk.Tree (KeepsDirectories)

variable {disk : Disk} {path content : String} {place : Place} {log : List Change}
  {original : Disk.Tree}

/-! ## Taking back one change -/

theorem Disk.writeAtomic_of_writes (h : Writes disk path place) :
    disk.writeAtomic path content =
      .ok (disk.withTree (disk.tree.put place (.file content))) := by
  have hw : Writes { disk with refusals := [] } path place :=
    ⟨h.entry, h.plain, h.free, h.staged⟩
  unfold Disk.writeAtomic OnDisk.unhindered
  rw [OnDisk.writeFile_of_writes hw rfl]
  rfl

theorem Disk.removeDirectory_of_place? (he : disk.place? path = .ok (some place))
    (hd : disk.tree.get? place = some .directory) (hc : disk.tree.hasChildren place = false) :
    disk.removeDirectory path = .ok (disk.withTree (disk.tree.erase place)) := by
  unfold Disk.removeDirectory
  simp [he, hd, hc, bind, Except.bind, pure, Except.pure]

theorem Disk.removeFile_of_place? (he : disk.place? path = .ok (some place))
    (hf : disk.tree.get? place = some (.file content))
    (hs : Disk.Path.saysDirectory path = false) :
    disk.removeFile path = .ok (disk.withTree (disk.tree.erase place)) := by
  unfold Disk.removeFile
  simp [he, hf, hs, bind, Except.bind, pure, Except.pure]

/-- Only a file that is there can be removed as one. -/
theorem Disk.removeFile_eq_ok {after : Disk} (h : disk.removeFile path = .ok after) :
    ∃ place content, disk.place? path = .ok (some place) ∧
      disk.tree.get? place = some (.file content) ∧ Disk.Path.saysDirectory path = false ∧
      after = disk.withTree (disk.tree.erase place) := by
  unfold Disk.removeFile at h
  obtain ⟨found, he, h⟩ := Result.bind_eq_ok_iff.mp h
  -- whatever else is at the place, or nothing, is an error
  cases found with
  | none => exact absurd h Result.throw_ne_ok
  | some place =>
      cases hg : disk.tree.get? place with
      | none =>
          simp only [hg] at h
          exact absurd h Result.throw_ne_ok
      | some node =>
          cases node with
          | directory =>
              simp only [hg] at h
              exact absurd h Result.throw_ne_ok
          | file content =>
              cases hs : Disk.Path.saysDirectory path with
              | true =>
                  simp only [hg, hs, if_true] at h
                  exact absurd h Result.throw_ne_ok
              | false =>
                  simp only [hg, hs, Bool.false_eq_true, if_false] at h
                  exact ⟨place, content, he, hg, rfl, (Result.pure_eq_ok_iff.mp h).symm⟩

theorem Disk.isThere_of_removeFile {after : Disk} (h : disk.removeFile path = .ok after) :
    disk.isThere path = true := by
  obtain ⟨place, content, he, hg, hs, -⟩ := Disk.removeFile_eq_ok h
  exact Disk.isThere_of_place? he (by simp [hg]) fun _ _ => hs

/-- Only a directory that is there and has nothing in it can be removed as one. -/
theorem Disk.removeDirectory_eq_ok {after : Disk} (h : disk.removeDirectory path = .ok after) :
    ∃ place, disk.place? path = .ok (some place) ∧ disk.tree.get? place = some .directory ∧
      disk.tree.hasChildren place = false ∧ after = disk.withTree (disk.tree.erase place) := by
  unfold Disk.removeDirectory at h
  obtain ⟨found, he, h⟩ := Result.bind_eq_ok_iff.mp h
  -- a file, or a directory with something in it, is an error
  cases found with
  | none => exact absurd h Result.throw_ne_ok
  | some place =>
      cases hg : disk.tree.get? place with
      | none =>
          simp only [hg] at h
          exact absurd h Result.throw_ne_ok
      | some node =>
          cases node with
          | file content =>
              simp only [hg] at h
              exact absurd h Result.throw_ne_ok
          | directory =>
              cases hc : disk.tree.hasChildren place with
              | true =>
                  simp only [hg, hc, if_true] at h
                  exact absurd h Result.throw_ne_ok
              | false =>
                  simp only [hg, hc, Bool.false_eq_true, if_false] at h
                  exact ⟨place, he, hg, hc, (Result.pure_eq_ok_iff.mp h).symm⟩

namespace Transaction

/-- What is not there cannot be removed. -/
theorem undo_createdFile_of_not_isThere (h : disk.isThere path = false) :
    undo disk (.createdFile path) = disk := by
  unfold undo
  cases hr : disk.removeFile path with
  | error cause =>
      dsimp only
      rw [hr]
      rfl
  | ok after =>
      rw [Disk.isThere_of_removeFile hr] at h
      exact Bool.noConfusion h

/-- Writing what is there changes nothing. -/
theorem undo_replacedFile_of_read (hwf : disk.tree.WellFormed)
    (h : disk.read path = .ok content) : undo disk (.replacedFile path content) = disk := by
  unfold undo Disk.writeAtomic OnDisk.unhindered
  rcases OnDisk.writeFile_cases path content { disk with refusals := [] } with
    ⟨e, rest, hw⟩ | ⟨place, rest, hw, hf⟩
  · dsimp only
    rw [hw]
  · obtain ⟨found, he, hg, -⟩ := Disk.place?_of_read hwf h
    have hplace : found = place := Option.some.inj (Except.ok.inj (he.symm.trans hw.entry))
    subst hplace
    dsimp only
    rw [hf, Disk.Tree.put_of_get? (Disk.ne_nil_of_place? he) hg]
    rfl

/-! ## Logs that revert a disk -/

/-- Taking back the changes of a log, the last one first, leads from a disk to a tree; each change
is found as it was made. -/
inductive Reverts (original : Disk.Tree) : List Change → Disk → Prop where
  | nothing {disk : Disk} : disk.tree = original → Reverts original [] disk
  | directory {disk : Disk} {path : String} {place : Place} {log : List Change} :
      disk.place? path = .ok (some place) →
      disk.tree.get? place = some .directory →
      disk.tree.hasChildren place = false →
      Reverts original log (disk.withTree (disk.tree.erase place)) →
      Reverts original (.createdDirectory path :: log) disk
  | file {disk : Disk} {path : String} {place : Place} {log : List Change} :
      disk.place? path = .ok (some place) →
      Disk.Path.saysDirectory path = false →
      disk.tree.get? place ≠ some .directory →
      Reverts original log (disk.withTree (disk.tree.erase place)) →
      Reverts original (.createdFile path :: log) disk
  | content {disk : Disk} {path former : String} {place : Place} {log : List Change} :
      Writes disk path place →
      (disk.tree.get? place).isSome →
      Reverts original log (disk.withTree (disk.tree.put place (.file former))) →
      Reverts original (.replacedFile path former :: log) disk

/-- **Taking back what a log reverts ends with the tree it began with.** -/
theorem Reverts.rollback_eq (h : Reverts original log disk) :
    log.foldl undo disk = disk.withTree original := by
  induction h with
  -- by induction on the log: the change that came last is taken back first
  | nothing ht =>
      subst ht
      rfl
  | directory he hd hc _ ih =>
      rw [List.foldl_cons, undo, Disk.removeDirectory_of_place? he hd hc]
      exact ih
  | @file disk path place log he hs hf _ ih =>
      rw [List.foldl_cons]
      cases hg : disk.tree.get? place with
      | none =>
          -- a file that has gone already need not be removed
          have hgone : disk.isThere path = false := by
            unfold Disk.isThere
            rw [Disk.find_of_place? he, hg]
          rw [undo_createdFile_of_not_isThere hgone]
          rw [Disk.Tree.erase_of_get?_none hg] at ih
          exact ih
      | some node =>
          cases node with
          | directory => exact absurd hg hf
          | file content =>
              rw [undo, Disk.removeFile_of_place? he hg hs]
              exact ih
  | content hw _ _ ih =>
      rw [List.foldl_cons, undo, Disk.writeAtomic_of_writes hw]
      exact ih

/-- Which steps will be refused does not matter to what a log reverts. -/
theorem Reverts.turned (h : Reverts original log disk) (refusals : List (Option IoCause)) :
    Reverts original log (disk.turned disk.tree refusals) := by
  induction h with
  | nothing ht => exact .nothing ht
  | directory he hd hc _ ih => exact .directory he hd hc ih
  | file he hs hf _ ih => exact .file he hs hf ih
  | content hw hn _ ih => exact .content ⟨hw.entry, hw.plain, hw.free, hw.staged⟩ hn ih

/-- Every path that is logged leads to an entry. -/
theorem Reverts.place?_of_mem (h : Reverts original log disk) {change : Change}
    (hm : change ∈ log) : ∃ place, disk.place? change.path = .ok (some place) := by
  induction h with
  | nothing _ => simp at hm
  | @directory disk path place log he hd hc _ ih =>
      rcases List.mem_cons.mp hm with rfl | hm
      · exact ⟨place, he⟩
      · obtain ⟨inner, hi⟩ := ih hm
        exact ⟨inner, Disk.place?_mono Disk.Tree.keepsDirectories_of_erase hi⟩
  | @file disk path place log he hs hf _ ih =>
      rcases List.mem_cons.mp hm with rfl | hm
      · exact ⟨place, he⟩
      · obtain ⟨inner, hi⟩ := ih hm
        exact ⟨inner, Disk.place?_mono Disk.Tree.keepsDirectories_of_erase hi⟩
  | @content disk path former place log hw hn _ ih =>
      rcases List.mem_cons.mp hm with rfl | hm
      · exact ⟨place, hw.entry⟩
      · obtain ⟨inner, hi⟩ := ih hm
        exact ⟨inner, Disk.place?_mono Disk.Tree.keepsDirectories_of_put hi⟩

/-- The entry of a logged path is the same below the changes above it. -/
theorem Reverts.place?_below {tree : Disk.Tree} (h : Reverts original log (disk.withTree tree))
    (hk : KeepsDirectories tree disk.tree) {change : Change} (hm : change ∈ log)
    (he : disk.place? change.path = .ok (some place)) :
    (disk.withTree tree).place? change.path = .ok (some place) := by
  obtain ⟨inner, hi⟩ := h.place?_of_mem hm
  have hup : disk.place? change.path = .ok (some inner) := Disk.place?_mono hk hi
  rw [he] at hup
  rw [hi, ← Option.some.inj (Except.ok.inj hup)]

/-- A directory without children is not above a place that stands in another directory. -/
theorem not_above_of_hasChildren {tree : Disk.Tree} {outer inner : Place} (hne : outer ≠ [])
    (hc : tree.hasChildren outer = false)
    (hd : (tree.erase outer).get? inner.dropLast = some .directory) :
    ¬ (outer <+: inner ∧ inner ≠ outer) := by
  rintro ⟨⟨below, rfl⟩, hio⟩
  have hbelow : below ≠ [] := by
    rintro rfl
    exact hio (List.append_nil outer)
  rw [List.dropLast_append_of_ne_nil hbelow] at hd
  by_cases hdrop : below.dropLast = []
  · rw [hdrop, List.append_nil, Disk.Tree.get?_erase_self hne] at hd
    exact absurd hd (by simp)
  · have hthere : (tree.get? (outer ++ below.dropLast)).isSome := by
      rw [Disk.Tree.keepsDirectories_of_erase _ hd]
      rfl
    have := Disk.Tree.hasChildren_of_get? (List.prefix_append outer below.dropLast)
      (by simpa using hdrop) hthere
    rw [hc] at this
    exact Bool.noConfusion this

/-! ## Writing a file again -/

/-- The change that names another entry than the last one is below it. -/
theorem mem_below {change last : Change} {other : Place} (hm : change ∈ last :: log)
    (he : disk.place? change.path = .ok (some place))
    (ho : disk.place? last.path = .ok (some other)) (hne : place ≠ other) : change ∈ log := by
  rcases List.mem_cons.mp hm with rfl | hm
  · exact absurd (Option.some.inj (Except.ok.inj (he.symm.trans ho))) hne
  · exact hm

section

variable {other : Place} {former : String}

/-- A file that was made is taken away whatever is in it. -/
theorem Reverts.file_put_self (he : disk.place? path = .ok (some place))
    (hs : Disk.Path.saysDirectory path = false) (hf : disk.tree.get? place ≠ some .directory)
    (h : Reverts original log (disk.withTree (disk.tree.erase place))) (content : String) :
    Reverts original (.createdFile path :: log)
      (disk.withTree (disk.tree.put place (.file content))) := by
  refine .file (Disk.place?_mono (Disk.Tree.keepsDirectories_put hf) he) hs ?_ ?_
  · exact fun hd => hf (Disk.Tree.keepsDirectories_of_put _ hd)
  · show Reverts original log (disk.withTree ((disk.tree.put place (.file content)).erase place))
    rwa [Disk.Tree.erase_put_self]

/-- A file that was replaced gets back what was in it whatever is in it now. -/
theorem Reverts.content_put_self (hw : Writes disk path place)
    (h : Reverts original log (disk.withTree (disk.tree.put place (.file former))))
    (content : String) :
    Reverts original (.replacedFile path former :: log)
      (disk.withTree (disk.tree.put place (.file content))) := by
  refine .content (hw.mono (Disk.Tree.keepsDirectories_put hw.free) ?_) ?_ ?_
  · exact fun hd => hw.free (Disk.Tree.keepsDirectories_of_put _ hd)
  · show ((disk.tree.put place (.file content)).get? place).isSome
    rw [Disk.Tree.get?_put_self (Disk.ne_nil_of_place? hw.entry)]
    rfl
  · show Reverts original log
      (disk.withTree ((disk.tree.put place (.file content)).put place (.file former)))
    rwa [Disk.Tree.put_put]

/-- A file outside a directory that was made last does not matter to that directory. -/
theorem Reverts.directory_put (ho : disk.place? path = .ok (some other))
    (hd : disk.tree.get? other = some .directory) (hc : disk.tree.hasChildren other = false)
    (hf : disk.tree.get? place ≠ some .directory) (hup : ¬ (other <+: place ∧ place ≠ other))
    (h : Reverts original log
      (disk.withTree ((disk.tree.erase other).put place (.file content)))) :
    Reverts original (.createdDirectory path :: log)
      (disk.withTree (disk.tree.put place (.file content))) := by
  have hne : place ≠ other := fun heq => hf (heq ▸ hd)
  refine .directory (Disk.place?_mono (Disk.Tree.keepsDirectories_put hf) ho) ?_
    (Disk.Tree.hasChildren_put hup hc) ?_
  · show (disk.tree.put place (.file content)).get? other = some .directory
    rwa [Disk.Tree.get?_put_of_ne (Ne.symm hne)]
  · show Reverts original log (disk.withTree ((disk.tree.put place (.file content)).erase other))
    rwa [Disk.Tree.erase_put_of_ne _ _ hne]

/-- A file does not matter to another one that was made last. -/
theorem Reverts.file_put (ho : disk.place? path = .ok (some other))
    (hs : Disk.Path.saysDirectory path = false) (hfree : disk.tree.get? other ≠ some .directory)
    (hf : disk.tree.get? place ≠ some .directory) (hne : place ≠ other)
    (h : Reverts original log
      (disk.withTree ((disk.tree.erase other).put place (.file content)))) :
    Reverts original (.createdFile path :: log)
      (disk.withTree (disk.tree.put place (.file content))) := by
  refine .file (Disk.place?_mono (Disk.Tree.keepsDirectories_put hf) ho) hs ?_ ?_
  · show (disk.tree.put place (.file content)).get? other ≠ some .directory
    rwa [Disk.Tree.get?_put_of_ne (Ne.symm hne)]
  · show Reverts original log (disk.withTree ((disk.tree.put place (.file content)).erase other))
    rwa [Disk.Tree.erase_put_of_ne _ _ hne]

/-- A file does not matter to another one that was replaced last. -/
theorem Reverts.content_put (hw : Writes disk path other) (hn : (disk.tree.get? other).isSome)
    (hf : disk.tree.get? place ≠ some .directory) (hne : place ≠ other)
    (h : Reverts original log
      (disk.withTree ((disk.tree.put other (.file former)).put place (.file content)))) :
    Reverts original (.replacedFile path former :: log)
      (disk.withTree (disk.tree.put place (.file content))) := by
  refine .content (hw.mono (Disk.Tree.keepsDirectories_put hf) ?_) ?_ ?_
  · rw [Disk.Tree.get?_put_of_ne (Ne.symm hne)]
    exact hw.free
  · show ((disk.tree.put place (.file content)).get? other).isSome
    rwa [Disk.Tree.get?_put_of_ne (Ne.symm hne)]
  · show Reverts original log
      (disk.withTree ((disk.tree.put place (.file content)).put other (.file former)))
    rwa [Disk.Tree.put_comm hne (Disk.ne_nil_of_place? hw.entry) hn]

end

/-- **A logged file can be written again without another change in the log.** -/
theorem Reverts.put (h : Reverts original log disk) {change : Change} (hm : change ∈ log)
    (he : disk.place? change.path = .ok (some place))
    (hf : disk.tree.get? place ≠ some .directory) (content : String) :
    Reverts original log (disk.withTree (disk.tree.put place (.file content))) := by
  -- The file is logged by the last change, or further down, where the last change is undone.
  induction h with
  | nothing _ => exact absurd hm List.not_mem_nil
  | @directory disk path outer log ho hd hc hrest ih =>
      have hne : place ≠ outer := fun heq => hf (heq ▸ hd)
      have hm := mem_below hm he ho hne
      have hbelow := hrest.place?_below Disk.Tree.keepsDirectories_of_erase hm he
      have hup := not_above_of_hasChildren (Disk.ne_nil_of_place? ho) hc
        (Disk.get?_dropLast_of_place? hbelow)
      refine .directory_put ho hd hc hf hup (ih hm hbelow ?_)
      show (disk.tree.erase outer).get? place ≠ some .directory
      rwa [Disk.Tree.get?_erase_of_ne hne]
  | @file disk path other log ho hs hfree hrest ih =>
      by_cases heq : place = other
      · subst heq
        exact .file_put_self ho hs hfree hrest content
      · have hm := mem_below hm he ho heq
        have hbelow := hrest.place?_below Disk.Tree.keepsDirectories_of_erase hm he
        refine .file_put ho hs hfree hf heq (ih hm hbelow ?_)
        show (disk.tree.erase other).get? place ≠ some .directory
        rwa [Disk.Tree.get?_erase_of_ne heq]
  | @content disk path former other log hw hn hrest ih =>
      by_cases heq : place = other
      · subst heq
        exact .content_put_self hw hrest content
      · have hm := mem_below hm he hw.entry heq
        have hbelow := hrest.place?_below Disk.Tree.keepsDirectories_of_put hm he
        refine .content_put hw hn hf heq (ih hm hbelow ?_)
        show (disk.tree.put other (.file former)).get? place ≠ some .directory
        rwa [Disk.Tree.get?_put_of_ne heq]

end Transaction

end StubGen
